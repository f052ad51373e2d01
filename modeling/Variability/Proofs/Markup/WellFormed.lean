import Variability.Proofs.Element.Descendants
import Variability.Proofs.Markup.Spans
import Variability.Proofs.Text.Trim

/-! The trees that are loaded. A name in such a tree has been reported by the lexer,
so it is one that the lexer would read again. No element is heavy, none has blank
text, and they nest no deeper than the loader allows. -/
namespace Variability

mutual
def Element.depth : Element → Nat
  | ⟨_, _, _, children⟩ => Element.depths children + 1

def Element.depths : List Element → Nat
  | [] => 0
  | e :: rest => max e.depth (Element.depths rest)
end

private theorem Element.depths_le {es : List Element} {n : Nat} (each : ∀ e ∈ es, e.depth ≤ n) :
    Element.depths es ≤ n := by
  induction es with
  | nil => exact Nat.zero_le n
  | cons e es ih =>
    rw [List.forall_mem_cons] at each
    rw [Element.depths]
    exact Nat.max_le.mpr ⟨each.1, ih each.2⟩

namespace Markup
open Text

/-- An element that has a place in a loaded tree. -/
structure WellFormed (e : Element) : Prop where
  light : isHeavy e.tag = false
  tag : IsName isTagStart endsName (bytes e.tag)
  attributes : ∀ entry ∈ e.attributes, IsName startsAttribute endsAttribute (bytes entry.1)
  text : e.text = "" ∨ isBlankText e.text = false

def WellFormedTree (tree : Element) : Prop := ∀ e, tree.Holds e → WellFormed e

section Items

private theorem Item.leadingText_cases (items : List Item) :
    leadingText items = "" ∨ isBlankText (leadingText items) = false := by
  induction items with
  | nil => exact .inl rfl
  | cons item items ih =>
    cases item with
    | child e => exact .inl rfl
    | text part =>
      rw [leadingText]
      split
      case isTrue => rwa [String.empty_append]
      case isFalse filled =>
        right
        rw [isBlankText_append, Bool.eq_false_iff.mpr filled, Bool.false_and]

def Item.WellFormed (n : Nat) : Item → Prop
  | .text _ => True
  | .child e => WellFormedTree e ∧ e.depth ≤ n

theorem Item.WellFormed.mono {item : Item} {n m : Nat} (fits : item.WellFormed n) (more : n ≤ m) :
    item.WellFormed m := by
  cases item with
  | text part => trivial
  | child e => exact ⟨fits.1, Nat.le_trans fits.2 more⟩

theorem Item.wellFormed_of_mem_children {items : List Item} {n : Nat}
    (inside : ∀ item ∈ items, item.WellFormed n) {e : Element}
    (listed : e ∈ items.filterMap child?) : WellFormedTree e ∧ e.depth ≤ n := by
  obtain ⟨item, member, is⟩ := List.mem_filterMap.mp listed
  have fits := inside item member
  cases item with
  | text part => contradiction
  | child child =>
    obtain rfl := Option.some.inj is
    exact fits

theorem Item.wellFormed_assemble {tag : String} {attributes : List (String × String)}
    {items : List Item} {n : Nat} (light : isHeavy tag = false)
    (name : IsName isTagStart endsName (bytes tag))
    (names : ∀ entry ∈ attributes, IsName startsAttribute endsAttribute (bytes entry.1))
    (inside : ∀ item ∈ items, item.WellFormed n) :
    (Item.child (assemble tag attributes items)).WellFormed (n + 1) := by
  constructor
  · intro e held
    rw [Element.holds_iff] at held
    rcases held with rfl | ⟨child, listed, deeper⟩
    · exact ⟨light, name, names, leadingText_cases items⟩
    · exact (wellFormed_of_mem_children inside listed).1 e deeper
  · rw [assemble, Element.depth]
    exact Nat.succ_le_succ (Element.depths_le fun e listed =>
      (wellFormed_of_mem_children inside listed).2)

end Items

section Nodes
variable {clean : Prop} {source : String}

theorem Span.Cuts.exists_raw {span : Span} {holds : List UInt8 → List UInt8 → Prop}
    (cuts : span.Cuts (bytes source) holds) :
    ∃ before, holds before (bytes (span.raw source.toByteArray)) := by
  obtain ⟨before, text, after, rfl, start, stop, fits⟩ := cuts.exists_text
  refine ⟨bytes before, ?_⟩
  rw [Span.raw, start, stop, slice_between]
  exact fits

theorem TagParts.isName_of_sound {parts : TagParts}
    (sound : ∀ t ∈ parts.tokens, t.Sound clean (bytes source)) :
    IsName isTagStart endsName (bytes (parts.tag source.toByteArray)) ∧
      ∀ entry ∈ parts.values source.toByteArray,
        IsName startsAttribute endsAttribute (bytes entry.1) := by
  rw [TagParts.tokens, List.forall_mem_cons] at sound
  obtain ⟨opening, attributes⟩ := sound
  constructor
  · obtain ⟨_, name, _⟩ := Span.Cuts.exists_raw opening
    exact name
  · intro entry listed
    obtain ⟨a, member, rfl⟩ := List.mem_map.mp listed
    have named := attributes (.attributeName a.name)
      (List.mem_flatMap.mpr ⟨a, member, List.mem_cons_self⟩)
    obtain ⟨_, name⟩ := Span.Cuts.exists_raw named
    dsimp only [AttributeParts.pair]
    exact name

private theorem Leaf.items_wellFormed (leaf : Leaf) (n : Nat) :
    ∀ item ∈ leaf.items source.toByteArray, item.WellFormed n := by
  cases leaf with
  | text | cdata => exact List.forall_mem_singleton.mpr trivial
  | comment | instruction => exact nofun

mutual
/-- Where the reports are sound, so is what they stand for. -/
theorem Node.items_wellFormed : (node : Node) → (∀ t ∈ node.tokens, t.Sound clean (bytes source)) →
    ∀ item ∈ node.items isHeavy source.toByteArray,
      item.WellFormed (node.depth isHeavy source.toByteArray)
  | .leaf leaf, _ => by
    rw [Node.items]
    exact leaf.items_wellFormed _
  | .empty parts stop, sound => by
    rw [Node.tokens_empty, Phrase.tokens] at sound
    rw [Node.items, Node.depth]
    split
    case isTrue => exact nofun
    case isFalse light =>
      obtain ⟨name, names⟩ := TagParts.isName_of_sound fun t part =>
        sound t (List.mem_append_left _ part)
      refine List.forall_mem_singleton.mpr
        (Item.wellFormed_assemble (n := 0) (Bool.eq_false_iff.mpr light) name names ?_)
      exact nofun
  | .element parts stop content close, sound => by
    rw [Node.tokens_element, Phrase.tokens] at sound
    simp only [List.mem_append] at sound
    rw [Node.items, Node.depth]
    split
    case isTrue => exact nofun
    case isFalse light =>
      obtain ⟨name, names⟩ := TagParts.isName_of_sound fun t part =>
        sound t (.inl (.inl (.inl part)))
      have inside := Forest.items_wellFormed content fun t part => sound t (.inl (.inr part))
      exact List.forall_mem_singleton.mpr
        (Item.wellFormed_assemble (Bool.eq_false_iff.mpr light) name names inside)

theorem Forest.items_wellFormed : (nodes : List Node) →
    (∀ t ∈ Forest.tokens nodes, t.Sound clean (bytes source)) →
    ∀ item ∈ Forest.items isHeavy source.toByteArray nodes,
      item.WellFormed (Forest.depth isHeavy source.toByteArray nodes)
  | [], _ => by
    rw [Forest.items]
    exact nofun
  | n :: rest, sound => by
    rw [Forest.tokens_cons, List.forall_mem_append] at sound
    rw [Forest.items, Forest.depth, List.forall_mem_append]
    refine ⟨fun item listed => ?_, fun item listed => ?_⟩
    · exact (n.items_wellFormed sound.1 item listed).mono (Nat.le_max_left _ _)
    · exact (Forest.items_wellFormed rest sound.2 item listed).mono (Nat.le_max_right _ _)
end

private theorem Forest.mem_tokens {nodes : List Node} {n : Node} (member : n ∈ nodes) {t : Token}
    (part : t ∈ n.tokens) : t ∈ Forest.tokens nodes := by
  induction nodes with
  | nil => contradiction
  | cons first rest ih =>
    rw [Forest.tokens_cons, List.mem_append]
    rcases List.mem_cons.mp member with rfl | later
    · exact .inl part
    · exact .inr (ih later)

theorem wellFormed_of_load {p : Project} (loads : load isHeavy source = .ok p) :
    WellFormedTree p.root ∧ p.root.depth ≤ 256 := by
  obtain ⟨before, root, after, parse, items, _⟩ := (load_eq_ok_iff isHeavy source p).mp loads
  have sound : ∀ t ∈ root.tokens, t.Sound False (bytes source) := by
    intro t part
    apply (Lexer.run_stopped (fun _ => false) (bytes source)).reports t
    change t ∈ tokens (bytes source)
    rw [parse.reports]
    apply List.mem_append_left
    exact Forest.mem_tokens (List.mem_append_right _ List.mem_cons_self) part
  have fits := root.items_wellFormed sound (.child p.root) (by rw [items]; exact List.mem_cons_self)
  exact ⟨fits.1, Nat.le_trans fits.2 parse.shallow⟩

end Nodes
end Markup
end Variability
