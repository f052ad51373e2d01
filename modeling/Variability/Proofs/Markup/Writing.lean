import Variability.Proofs.Markup.WellFormed

/-! Writing a tree down. Every character that means something to the lexer is
written as a reference, attributes stand in double quotes, and each element has an
end tag. A tree that has been loaded is loaded again from what is written, with
nothing left out. -/
namespace Variability.Markup
open Text

def escapeChar (c : Char) : List Char :=
  match predefined.find? (·.2 == c) with
  | some entry => '&' :: entry.1.toList ++ [';']
  | none => [c]

def escape (text : String) : String := String.ofList (text.toList.flatMap escapeChar)

def writeAttributes : List (String × String) → String
  | [] => ""
  | entry :: rest => " " ++ entry.1 ++ "=\"" ++ escape entry.2 ++ "\"" ++ writeAttributes rest

mutual
def write : Element → String
  | ⟨tag, attributes, text, children⟩ =>
    "<" ++ tag ++ writeAttributes attributes ++ ">" ++ escape text ++ writeAll children ++
      "</" ++ tag ++ ">"

def writeAll : List Element → String
  | [] => ""
  | e :: rest => write e ++ writeAll rest
end

section Escapes
variable {stop : Char} (delimiter : stop ∈ delimiters)
include delimiter

private theorem spells_escapeChar (c : Char) : Spells stop c (escapeChar c) := by
  unfold escapeChar
  split
  case h_1 entry found =>
    have same : entry.2 = c := by simpa using List.find?_some found
    have known : (entry.1, c) ∈ predefined := by
      rw [← same]
      exact List.mem_of_find?_eq_some found
    exact .named known
  case h_2 unlisted =>
    -- every delimiter is among the characters that have a name
    have named : ('&' :: delimiters).all (fun d => predefined.any (·.2 == d)) = true := rfl
    have other : c ∉ '&' :: delimiters := by
      intro found
      have := List.all_eq_true.mp named c found
      rw [List.find?_eq_none] at unlisted
      obtain ⟨entry, listed, is⟩ := List.any_eq_true.mp this
      exact unlisted entry listed is
    rw [List.mem_cons, not_or] at other
    refine .plain ⟨other.1, ?_⟩
    rintro rfl
    exact other.2 delimiter

def Run.escaped (text : String) : Run stop .kept :=
  text.toList.map fun c => ⟨c, escapeChar c, spells_escapeChar delimiter c⟩

@[simp]
theorem Run.raw_escaped (text : String) : (Run.escaped delimiter text).raw = escape text := by
  rw [Run.raw, Run.escaped, List.flatMap_map]
  rfl

@[simp] theorem Run.text_escaped (text : String) : (Run.escaped delimiter text).text = text := by
  rw [Run.text, Run.escaped, List.map_map]
  change String.ofList (text.toList.map id) = text
  rw [List.map_id, String.ofList_toList]

end Escapes

section Names
variable {text : String} {starts ends : UInt8 → Bool}

private theorem exists_chars_of_isName (name : IsName starts ends (bytes text)) {set : List Char}
    (ascii : set.all (·.toNat < 128) = true) (stops : ∀ b, ends b = set.contains (Char.ofUInt8 b)) :
    ∃ c cs, text.toList = c :: cs ∧
      (128 ≤ c.toNat ∨ ∃ b, Char.ofUInt8 b = c ∧ starts b = true) ∧ ∀ c ∈ cs, c ∉ set := by
  cases chars : text.toList with
  | nil => exact absurd (by rw [bytes_eq_flatMap, chars]; rfl) name.ne_nil
  | cons c cs =>
    have split : bytes text = String.utf8EncodeChar c ++ cs.flatMap String.utf8EncodeChar := by
      rw [bytes_eq_flatMap, chars, List.flatMap_cons]
    rw [split] at name
    refine ⟨c, cs, rfl, ?_, fun d listed member => ?_⟩
    · by_cases low : c.toNat ≤ 127
      · obtain ⟨b, _, is, single⟩ := encode_ascii low
        rw [single] at name
        exact .inr ⟨b, is, name.1⟩
      · left
        omega
    · have low := of_decide_eq_true (List.all_eq_true.mp ascii d member)
      obtain ⟨b, _, rfl, single⟩ := encode_ascii (Nat.le_of_lt_succ low)
      obtain ⟨first, others, shape⟩ := List.exists_cons_of_ne_nil (encode_ne_nil c)
      rw [shape] at name
      have found : b ∈ others ++ cs.flatMap String.utf8EncodeChar := by
        refine List.mem_append_right _ (List.mem_flatMap.mpr ⟨_, listed, ?_⟩)
        rw [single]
        exact List.mem_cons_self
      have goes := name.2 b found
      rw [stops, ← Bool.not_eq_true, List.contains_iff_mem] at goes
      exact goes member

private theorem exists_tagName (name : IsName isTagStart endsName (bytes text)) :
    ∃ tag : TagName, tag.text = text := by
  obtain ⟨c, cs, chars, start, free⟩ := exists_chars_of_isName name rfl endsName_eq
  have starts : startsName c = true := by
    rcases start with high | ⟨b, rfl, start⟩
    · simp [startsName, high]
    · rw [startsName_ofUInt8, start]
  have first : c ∉ '/' :: '>' :: spaceChars := by
    have nameless : ('/' :: '>' :: spaceChars).all (!startsName ·) = true := rfl
    intro member
    have := List.all_eq_true.mp nameless c member
    simp [starts] at this
  refine ⟨⟨text, ?_, ?_⟩, rfl⟩
  · rw [chars]
    exact starts
  · rw [chars, List.forall_mem_cons]
    exact ⟨first, free⟩

private theorem exists_attributeName (name : IsName startsAttribute endsAttribute (bytes text)) :
    ∃ name : AttributeName, name.text = text := by
  obtain ⟨c, cs, chars, start, free⟩ := exists_chars_of_isName name rfl endsAttribute_eq
  refine ⟨⟨text, ?_, ?_⟩, rfl⟩
  · rw [chars]
    apply decide_eq_true
    rcases start with high | ⟨b, rfl, start⟩
    · intro member
      have ascii : ('=' :: '"' :: '\'' :: '<' :: '>' :: '/' :: spaceChars).all (·.toNat < 128) = true :=
        rfl
      have low := of_decide_eq_true (List.all_eq_true.mp ascii c member)
      omega
    · exact of_decide_eq_true start
  · rw [chars]
    exact free

end Names

section Trees

def Spaces.one : Spaces := ⟨" ", by simp [spaceChars]⟩

private theorem exists_attributes (attributes : List (String × String))
    (names : ∀ entry ∈ attributes, IsName startsAttribute endsAttribute (bytes entry.1)) :
    ∃ written : List (Spaces × Attribute .kept),
      StartTag.renderAttributes written = writeAttributes attributes ∧
        (written.map fun a => (a.2.name.text, a.2.value.text)) = attributes ∧
        ∀ first ∈ written.head?, first.1.val ≠ "" := by
  induction attributes with
  | nil => exact ⟨[], rfl, rfl, nofun⟩
  | cons entry attributes ih =>
    obtain ⟨name, value⟩ := entry
    rw [List.forall_mem_cons] at names
    obtain ⟨rest, render, values, _⟩ := ih names.2
    obtain ⟨name, rfl⟩ := exists_attributeName names.1
    have delimiter : Quote.char .double ∈ delimiters := by decide
    let first : Attribute .kept := { name, quote := .double, value := Run.escaped delimiter value }
    refine ⟨(.one, first) :: rest, ?_, ?_, ?_⟩
    · have written : first.render = name.text ++ "=\"" ++ escape value ++ "\"" := by
        have quoted : "=\"" = "=" ++ "\"" := rfl
        rw [Attribute.render, Run.raw_escaped delimiter, quoted]
        change name.text ++ "" ++ "=" ++ "" ++ "\"" ++ escape value ++ "\"" = _
        simp only [String.append_empty, String.append_assoc]
      rw [StartTag.renderAttributes, writeAttributes, render, written]
      simp only [String.append_assoc]
      rfl
    · rw [List.map_cons, values, Run.text_escaped delimiter]
    · intro _ is
      obtain rfl := Option.some.inj is
      exact show " " ≠ "" by decide

/-- The start tag and what follows it write the element down. -/
structure Writes (e : Element) (start : StartTag .kept) (inside : Inside .kept Heavy) : Prop where
  render : write e = "<" ++ (start.render ++ inside.render Heavy.render start.name.text)
  element : Item.assemble start.name.text start.values inside.items = e
  discarded : inside.discarded = 0
  depth : inside.depth + 1 = e.depth

structure WritesAll (text : String) (children : List Element) (content : Content .kept Heavy) :
    Prop where
  render : content.render Heavy.render = escape text ++ writeAll children
  leadingText : Item.leadingText content.items = if isBlankText text then "" else text
  elements : content.items.filterMap Item.child? = children
  discarded : content.discarded = 0
  depth : content.depth = Element.depths children

private theorem angle_mem_delimiters : '<' ∈ delimiters := by decide

mutual
theorem exists_writes : (e : Element) → WellFormedTree e → ∃ start inside, Writes e start inside
  | ⟨tag, attributes, text, children⟩, tree => by
    have here := tree _ (.itself _)
    obtain ⟨name, rfl⟩ := exists_tagName here.tag
    obtain ⟨written, render, values, separated⟩ := exists_attributes attributes here.attributes
    obtain ⟨content, all⟩ := exists_writesAll text children fun child listed e held =>
      tree e (.inside listed held)
    let start : StartTag .kept :=
      { name, light := fun _ => here.light, attributes := written, separated }
    refine ⟨start, .content content .none, ?_, ?_, ?_, ?_⟩
    · rw [write, Inside.render, all.render, StartTag.render, render]
      change _ = "<" ++ (name.text ++ writeAttributes attributes ++ "" ++
        (">" ++ (escape text ++ writeAll children) ++ "</" ++ name.text ++ "" ++ ">"))
      simp only [String.append_empty, String.append_assoc]
    · have kept : (if isBlankText text then "" else text) = text := by
        rcases here.text with rfl | filled
        · rfl
        · rw [if_neg (Bool.eq_false_iff.mp filled)]
      have same : start.values = attributes := values
      rw [Inside.items, Item.assemble, same, all.leadingText, all.elements, kept]
    · rw [Inside.discarded, all.discarded]
    · rw [Inside.depth, all.depth, Element.depth]

theorem exists_writesAll : (text : String) → (children : List Element) →
    (∀ child ∈ children, WellFormedTree child) → ∃ content, WritesAll text children content
  | text, [], _ => by
    refine ⟨.last (.escaped angle_mem_delimiters text), ?_, ?_, ?_, ?_, ?_⟩
    · rw [Content.render, Run.raw_escaped, writeAll, String.append_empty]
    · rw [Content.items, Run.text_escaped, Item.leadingText, Item.leadingText, String.append_empty]
    · rw [Content.items]
      rfl
    · rw [Content.discarded]
    · rw [Content.depth, Element.depths]
  | text, child :: rest, trees => by
    rw [List.forall_mem_cons] at trees
    obtain ⟨start, inside, first⟩ := exists_writes child trees.1
    obtain ⟨content, later⟩ := exists_writesAll "" rest trees.2
    refine ⟨.more (.escaped angle_mem_delimiters text) (.element start inside) content,
      ?_, ?_, ?_, ?_, ?_⟩
    · rw [Content.render, Run.raw_escaped, Piece.render, later.render, writeAll, first.render]
      simp only [String.append_assoc]
      rfl
    · rw [Content.items, Run.text_escaped, Piece.items]
      exact String.append_empty
    · rw [Content.items, Piece.items, first.element]
      exact congrArg (child :: ·) later.elements
    · rw [Content.discarded, Piece.discarded, first.discarded, later.discarded]
    · rw [Content.depth, Piece.depth, first.depth, later.depth, Element.depths]
end

end Trees

theorem loadText_write {e : Element} (tree : WellFormedTree e) (shallow : e.depth ≤ 256) :
    loadText (write e) = .ok ⟨e, 0⟩ := by
  obtain ⟨start, inside, writes⟩ := exists_writes e tree
  have bound : ([] : List OpenElement).length + 1 + inside.depth ≤ maxDepth := by
    have := writes.depth
    rw [maxDepth, List.length_nil]
    omega
  have root : Reads _ _ { root := none, discarded := 0 } _ _ := inside.reads start rfl bound
  rw [writes.element, writes.discarded] at root
  have whole := load_of_reads .none ((Blank.none.reads none 0).append root)
  have begins := dropMark_blank .none (start.render ++ inside.render Heavy.render start.name.text)
  change dropMark ("" ++ _) = "" ++ _ at begins
  change load isHeavy (("" ++ "<") ++ _ ++ "") = _ at whole
  rw [String.empty_append] at begins
  rw [String.append_empty, String.empty_append] at whole
  rw [loadText, writes.render, begins]
  exact whole

/-- What is loaded is well formed, and it is loaded again from what is written of it. -/
theorem loadText_wellFormed (source : String) (p : Project) (loads : loadText source = .ok p) :
    (∀ e ∈ p.root.descendants, WellFormed e) ∧ p.root.depth ≤ 256 ∧
      loadText (write p.root) = .ok ⟨p.root, 0⟩ := by
  obtain ⟨tree, shallow⟩ := wellFormed_of_load loads
  refine ⟨fun e listed => ?_, shallow, loadText_write tree shallow⟩
  exact tree e ((Element.mem_descendants_iff p.root e).mp listed)

theorem loadText_wellFormed_quotes :
    ∃ p, loadText "<a b='\"'>&lt;<sound/><c/></a>" = .ok p ∧
      write p.root = "<a b=\"&quot;\">&lt;<c></c></a>" ∧
      (∀ e ∈ p.root.descendants, WellFormed e) ∧ p.root.depth ≤ 256 ∧
      loadText (write p.root) = .ok ⟨p.root, 0⟩ := by
  have loads : loadText "<a b='\"'>&lt;<sound/><c/></a>" =
      .ok ⟨⟨"a", [("b", "\"")], "<", [⟨"c", [], "", []⟩]⟩, 1⟩ := rfl
  exact ⟨_, loads, rfl, loadText_wellFormed _ _ loads⟩

/-- A form feed is a blank in ASCII, but none of the four that end a name. -/
theorem loadText_form_feed_in_tag :
    ∃ p, loadText "<a\x0cb/>" = .ok p ∧
      ¬ ∀ e ∈ p.root.descendants, ∀ b ∈ bytes e.tag, b ∉ ([9, 10, 12, 13, 32] : List UInt8) := by
  have loads : loadText "<a\x0cb/>" = .ok ⟨⟨"a\x0cb", [], "", []⟩, 0⟩ := rfl
  refine ⟨_, loads, fun blankless => ?_⟩
  have root : (⟨"a\x0cb", [], "", []⟩ : Element) ∈
      Element.descendants ⟨"a\x0cb", [], "", []⟩ :=
    (Element.mem_descendants_iff _ _).mpr (.itself _)
  exact blankless _ root 12 (by decide) (by decide)

end Variability.Markup
