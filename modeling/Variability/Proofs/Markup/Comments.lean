import Variability.Proofs.Markup.Amid
import Variability.Proofs.Markup.Divergence
import Variability.Proofs.Text.Trim

/-! A comment in the character data of an element. It parts a text into two, which the
loader takes one after the other, and drops those that are blank. So a comment goes
unnoticed, except where it parts blanks from the text next to them that stand between
two texts. -/
namespace Variability.Markup
open Text Element

section Texts
variable {heavy : String → Bool} {source : ByteArray} {parent : OpenElement}
  {outer : List OpenElement} {d start stop : Nat}

theorem loads_append_of_run {ts us : List Token} {l m : Loader}
    (run : ts.foldlM (Loader.step heavy source) l = .ok m) (p : Project) :
    Loads heavy source (ts ++ us) l p ↔ Loads heavy source us m p := by
  unfold Loads
  rw [List.foldlM_append, run]
  rfl

theorem loads_textReport_iff (order : start ≤ stop) (us : List Token) (p : Project) :
    Loads heavy source (Cursor.textReport start stop ++ us)
        { opened := parent :: outer, discarded := d } p ↔
      ∃ text, decode (slice source start stop) = .ok text ∧
        Loads heavy source us { opened := parent.take (.text text) :: outer, discarded := d } p := by
  unfold Cursor.textReport
  split
  case isTrue =>
    have runs : Runs heavy source [(Leaf.text ⟨start, stop⟩).token]
        { opened := parent :: outer, discarded := d } _ _ := kept_leaf_runs _ parent outer
    refine (runs.loads_append p).trans ?_
    rw [Leaf.decodes, Leaf.items, List.foldl_cons, List.foldl_nil, Span.decodes, Span.decoded,
      Span.raw]
    cases decode (slice source start stop) with
    | ok text => simp [Except.isOk, Except.toBool, Except.toOption]
    | error bad => simp [Except.isOk, Except.toBool]
  case isFalse empty =>
    obtain rfl : start = stop := Nat.le_antisymm order (Nat.le_of_not_lt empty)
    rw [slice_self, List.nil_append]
    have same : parent.take (.text "") = parent := rfl
    constructor
    · intro loads
      exact ⟨"", rfl, same.symm ▸ loads⟩
    · rintro ⟨text, decoded, loads⟩
      obtain rfl := Except.ok.inj decoded
      exact loads

private theorem scan_comment_in_text (mark i : Nat) :
    Cursor.scan ⟨.text, mark⟩ i (bytes "<!---->") =
      (⟨.text, i + 7⟩, Cursor.textReport mark i ++ [.comment ⟨i + 4, i + 4⟩]) := rfl

section Ahead
variable {mark i : Nat} (order : mark ≤ i) {body tail : List UInt8} (free : 0x3C ∉ body)
  (bracket : ∀ b ∈ tail.head?, b = 0x3C) (p : Project)
include order free bracket

theorem loads_text_iff :
    Loads heavy source (Cursor.remaining ⟨.text, mark⟩ i (body ++ tail))
        { opened := parent :: outer, discarded := d } p ↔
      ∃ text, decode (slice source mark (i + body.length)) = .ok text ∧
        Loads heavy source (Cursor.remaining ⟨.text, i + body.length⟩ (i + body.length) tail)
          { opened := parent.take (.text text) :: outer, discarded := d } p := by
  rw [Cursor.remaining_text _ _ free bracket,
    loads_textReport_iff (Nat.le_add_right_of_le order)]

/-- With a comment ahead of what follows, the text is taken in two parts. -/
theorem loads_comment_iff :
    Loads heavy source (Cursor.remaining ⟨.text, mark⟩ i (bytes "<!---->" ++ (body ++ tail)))
        { opened := parent :: outer, discarded := d } p ↔
      ∃ left, decode (slice source mark i) = .ok left ∧
        ∃ right, decode (slice source (i + 7) (i + body.length + 7)) = .ok right ∧
          Loads heavy source
            (Cursor.remaining ⟨.text, i + body.length + 7⟩ (i + body.length + 7) tail)
            { opened := (parent.take (.text left)).take (.text right) :: outer, discarded := d }
            p := by
  have size : (bytes "<!---->").length = 7 := rfl
  have skips (l : Loader) :
      [Token.comment ⟨i + 4, i + 4⟩].foldlM (Loader.step heavy source) l = .ok l := rfl
  rw [Cursor.remaining_append, scan_comment_in_text, size, List.append_assoc,
    loads_textReport_iff order, Nat.add_right_comm]
  simp only [loads_append_of_run (skips _), loads_text_iff (Nat.le_refl (i + 7)) free bracket]

end Ahead
end Texts

section Insertion
variable {source : String} {parent : OpenElement}

def textAhead (rest : String) : String := String.ofList (rest.toList.takeWhile (· != '<'))

private theorem exists_textAhead (rest : String) :
    ∃ tail, rest = textAhead rest ++ tail ∧ 0x3C ∉ bytes (textAhead rest) ∧
      ∀ b ∈ (bytes tail).head?, b = 0x3C := by
  refine ⟨String.ofList (rest.toList.dropWhile (· != '<')), ?_, ?_, ?_⟩
  · rw [textAhead, ← String.ofList_append, List.takeWhile_append_dropWhile, String.ofList_toList]
  · intro found
    have bracket := mem_toList_of_mem_bytes (by decide) found
    rw [textAhead, String.toList_ofList] at bracket
    exact absurd (List.mem_takeWhile_imp bracket) (by decide)
  · cases split : rest.toList.dropWhile (· != '<') with
    | nil => exact nofun
    | cons c cs =>
      have head := List.head?_dropWhile_not (· != '<') rest.toList
      rw [split] at head
      obtain rfl : c = '<' := by simpa using head
      rw [bytes_ofList]
      rintro b ⟨⟩
      rfl

theorem load_append_iff {front : String} {outer : List OpenElement} {d : Nat}
    (cursor : (Cursor.scan {} 0 (bytes source)).1 = ⟨.text, front.utf8ByteSize⟩)
    (run : (Cursor.scan {} 0 (bytes source)).2.foldlM (Loader.step isHeavy source.toByteArray) {} =
      .ok { opened := parent :: outer, discarded := d })
    (more : String) (p : Project) :
    load isHeavy (source ++ more) = .ok p ↔
      Loads isHeavy (source ++ more).toByteArray
        (Cursor.remaining ⟨.text, front.utf8ByteSize⟩ source.utf8ByteSize (bytes more))
        { opened := parent :: outer, discarded := d } p := by
  have alike := scan_alike isHeavy source more
  rw [run] at alike
  have reports : tokens (bytes (source ++ more)) = (Cursor.scan {} 0 (bytes source)).2 ++
      Cursor.remaining ⟨.text, front.utf8ByteSize⟩ source.utf8ByteSize (bytes more) ++
        [.endOfSource] := by
    rw [bytes_append, tokens_append, cursor, length_bytes]
  rw [load_eq_ok_iff_loads, reports, loads_endOfSource_iff, loads_append_of_run alike]

private theorem OpenElement.exists_take_text (e : OpenElement) (part : String) :
    ∃ text, e.take (.text part) = { e with text } := by
  unfold OpenElement.take
  dsimp only
  split
  · exact ⟨e.text, rfl⟩
  · exact ⟨e.text ++ part, rfl⟩

private theorem Loader.alike_take (first second : ByteArray) (parent : OpenElement)
    (outer : List OpenElement) (d : Nat) (whole left right : String) :
    Loader.Alike first second parent (parent.take (.text whole)).text
      ((parent.take (.text left)).take (.text right)).text
      { opened := parent.take (.text whole) :: outer, discarded := d }
      { opened := (parent.take (.text left)).take (.text right) :: outer, discarded := d } := by
  obtain ⟨x, once⟩ := parent.exists_take_text whole
  obtain ⟨part, twice⟩ := parent.exists_take_text left
  obtain ⟨y, more⟩ := OpenElement.exists_take_text { parent with text := part } right
  rw [once, twice, more]
  have parted : OpenElement.Parted parent x y _ _ := .here "" parent.children
  rw [String.append_empty, String.append_empty] at parted
  exact ⟨.none, .none, rfl, rfl, .opened [] outer parted⟩

theorem Loads.insert {heavy : String → Bool} {before after : String} (between : String)
    {tail : List UInt8} {j : Nat} {x y : String} {l m : Loader} {p : Project}
    (loads : Loads heavy (before ++ after).toByteArray (Cursor.remaining ⟨.text, j⟩ j tail) l p)
    (beyond : before.utf8ByteSize ≤ j) (far : 2 ≤ j)
    (alike : l.Alike (before ++ after).toByteArray (before ++ between ++ after).toByteArray
      parent x y m) :
    ∃ q, Loads heavy (before ++ between ++ after).toByteArray
        (Cursor.remaining ⟨.text, j + between.utf8ByteSize⟩ (j + between.utf8ByteSize) tail) m q ∧
      q.discarded = p.discarded ∧ Retold parent x y p.root q.root :=
  loads.alike alike
    (Cursor.remaining_alike (slice_insert before between after) beyond beyond far tail)

theorem load_insert_comment (amid : InCharacterData source parent) {rest : String} {p : Project}
    (loaded : load isHeavy (source ++ rest) = .ok p) :
    ∃ q left right, load isHeavy (source ++ ("<!---->" ++ rest)) = .ok q ∧
      q.discarded = p.discarded ∧ decode (openText source) = .ok left ∧
      decode (textAhead rest) = .ok right ∧
      Retold parent (parent.take (.text (left ++ right))).text
        ((parent.take (.text left)).take (.text right)).text p.root q.root := by
  obtain ⟨outer, d, run⟩ := amid.exists_loader
  obtain ⟨front, whole, cursor⟩ := amid.exists_front
  obtain ⟨tail, split, free, bracket⟩ := exists_textAhead rest
  have closed := amid.closed
  have far : 2 ≤ source.utf8ByteSize + (textAhead rest).utf8ByteSize :=
    Nat.le_add_right_of_le amid.two_le
  generalize openText source = first at whole closed ⊢
  generalize textAhead rest = second at split free far ⊢
  subst split
  have order : front.utf8ByteSize ≤ source.utf8ByteSize := by
    rw [whole, String.utf8ByteSize_append]
    exact Nat.le_add_right _ _
  -- without the comment the text is decoded as a whole
  rw [load_append_iff cursor run, bytes_append, loads_text_iff order free bracket, length_bytes]
    at loaded
  obtain ⟨text, decoded, loaded⟩ := loaded
  have cut := slice_between front (first ++ second) tail
  rw [← String.append_assoc, ← whole, String.utf8ByteSize_append, String.append_assoc] at cut
  rw [cut] at decoded
  obtain ⟨left, right, decodedLeft, decodedRight, rfl⟩ := exists_decode_append closed decoded
  -- from there on the two loaders differ in the text of the parent
  obtain ⟨q, loads, count, retold⟩ := loaded.insert "<!---->" (Nat.le_add_right _ _) far
    (Loader.alike_take _ _ parent outer d (left ++ right) left right)
  refine ⟨q, left, right, ?_, count, decodedLeft, decodedRight, retold⟩
  rw [String.append_assoc] at loads
  rw [load_append_iff cursor run, bytes_append, bytes_append, loads_comment_iff order free bracket,
    length_bytes]
  refine ⟨left, ?_, right, ?_, loads⟩
  · have cut := slice_between front first ("<!---->" ++ (second ++ tail))
    rw [← whole] at cut
    rw [cut, decodedLeft]
  · have cut := slice_between source second tail
    rw [String.append_assoc, String.utf8ByteSize_append,
      slice_insert source "<!---->" _ _ _ (Nat.le_refl _), String.append_assoc] at cut
    rw [← decodedRight]
    exact congrArg decode cut

end Insertion

/-- Taken one after the other, `left` and `right` leave out blanks between two texts: one
of them is blank and is parted from the other, and there is a text on its other side. -/
def LosesBlanks (before left right after : String) : Prop :=
  (left ≠ "" ∧ isBlankText left = true ∧ isBlankText before = false ∧ isBlankText right = false) ∨
    (right ≠ "" ∧ isBlankText right = true ∧ isBlankText left = false ∧ isBlankText after = false)

private theorem OpenElement.trim_take_iff (e : OpenElement) (left right after : String) :
    trim (((e.take (.text left)).take (.text right)).text ++ after) =
        trim ((e.take (.text (left ++ right))).text ++ after) ↔
      ¬ (e.children = [] ∧ LosesBlanks e.text left right after) := by
  obtain ⟨tag, attributes, before, children⟩ := e
  cases children with
  | cons c children => simp [take]
  | nil =>
    cases blank : isBlankText left <;> cases blank' : isBlankText right
    · simp [take, LosesBlanks, blank, blank', String.append_assoc]
    · have lost := trim_append_blank_iff blank' (before ++ left) after
      simp only [String.append_assoc] at lost
      simp [take, LosesBlanks, blank, blank', String.append_assoc, lost, or_iff_not_imp_left]
    · have lost := trim_append_blank_iff blank before (right ++ after)
      simp only [String.append_assoc] at lost
      simp [take, LosesBlanks, blank, blank', String.append_assoc, lost, or_iff_not_imp_left]
    · simp [take, LosesBlanks, blank, blank']

/-- A comment in the character data of an element, and not in a reference, changes at
most the text of that element: the two parts of the text, `left` and `right`, are taken
by themselves. Blanks around the texts apart, the trees are the same exactly when no
blanks between two texts are left out. -/
theorem loadText_insert_comment (start rest : String) (parent : OpenElement) (p : Project)
    (amid : InCharacterData (dropMark start) parent) (loaded : loadText (start ++ rest) = .ok p) :
    ∃ q e left right after,
      loadText (start ++ "<!---->" ++ rest) = .ok q ∧ q.discarded = p.discarded ∧
      decode (openText (dropMark start)) = .ok left ∧ decode (textAhead rest) = .ok right ∧
      e.tag = parent.tag ∧ e.attributes = parent.attributes ∧
      e.text = (parent.take (.text (left ++ right))).text ++ after ∧
      Swap e { e with text := ((parent.take (.text left)).take (.text right)).text ++ after }
        p.root q.root ∧
      (q.root.trimmed = p.root.trimmed ↔
        ¬ (parent.children = [] ∧ LosesBlanks parent.text left right after)) := by
  have nonempty : start ≠ "" := by
    rintro rfl
    exact absurd amid.two_le (by decide)
  rw [loadText, dropMark_append _ nonempty] at loaded
  obtain ⟨q, left, right, loaded', count, decoded, decoded', after, children, swap⟩ :=
    load_insert_comment amid loaded
  refine ⟨q, _, left, right, after, ?_, count, decoded, decoded', rfl, rfl, rfl, swap, ?_⟩
  · rw [loadText, String.append_assoc, dropMark_append _ nonempty]
    exact loaded'
  · rw [swap.trimmed_eq_iff, ← parent.trim_take_iff]
    simp [trimmed]

theorem loadText_insert_comment_in_text :
    InCharacterData (dropMark "<l>&lt;<!--x--> a ") ⟨"l", [], "<", []⟩ ∧
      ∃ p q, loadText ("<l>&lt;<!--x--> a " ++ "&amp; b</l>") = .ok p ∧
        loadText ("<l>&lt;<!--x--> a " ++ "<!---->" ++ "&amp; b</l>") = .ok q ∧
        q.discarded = p.discarded ∧ q.root.trimmed = p.root.trimmed := by
  have amid : InCharacterData (dropMark "<l>&lt;<!--x--> a ") ⟨"l", [], "<", []⟩ :=
    ⟨rfl, ⟨_, [], rfl, rfl, rfl⟩, by decide +kernel⟩
  refine ⟨amid, ⟨⟨"l", [], "< a & b", []⟩, 0⟩, ?_⟩
  obtain ⟨q, e, left, right, after, loaded, count, decoded, decoded', _, _, _, _, same⟩ :=
    loadText_insert_comment "<l>&lt;<!--x--> a " "&amp; b</l>" _
      ⟨⟨"l", [], "< a & b", []⟩, 0⟩ amid rfl
  obtain rfl : " a " = left := Except.ok.inj decoded
  obtain rfl : "& b" = right := Except.ok.inj decoded'
  refine ⟨q, rfl, loaded, count, same.mpr ?_⟩
  rintro ⟨_, ⟨_, blank, _⟩ | ⟨_, blank, _⟩⟩ <;> contradiction

/-- The blank that parts the two letters is taken by itself and is dropped. -/
theorem loadText_insert_comment_after_blank :
    InCharacterData (dropMark "<l>a<!--x--> ") ⟨"l", [], "a", []⟩ ∧
      loadText ("<l>a<!--x--> " ++ "b</l>") = .ok ⟨⟨"l", [], "a b", []⟩, 0⟩ ∧
      loadText ("<l>a<!--x--> " ++ "<!---->" ++ "b</l>") = .ok ⟨⟨"l", [], "ab", []⟩, 0⟩ :=
  ⟨⟨rfl, ⟨_, [], rfl, rfl, rfl⟩, by decide +kernel⟩, rfl, rfl⟩

end Variability.Markup
