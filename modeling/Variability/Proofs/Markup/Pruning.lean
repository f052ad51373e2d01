import Variability.Proofs.Markup.Acceptance

/-! Leaving heavy elements out while loading, compared with loading everything and
taking them out of the tree. The two agree but for one thing: an element's text
ends at its first child, and a heavy element that is never loaded does not end it. -/
namespace Variability
namespace Element
variable (heavy : String → Bool)

mutual
def prune : Element → Element
  | ⟨tag, attributes, text, children⟩ => ⟨tag, attributes, text, pruneAll children⟩

def pruneAll : List Element → List Element
  | [] => []
  | e :: rest => if heavy e.tag then pruneAll rest else e.prune :: pruneAll rest
end

mutual
/-- The number of heavy elements below that no other one holds. -/
def heavyBelow : Element → Nat
  | ⟨_, _, _, children⟩ => heavyAmong children

def heavyAmong : List Element → Nat
  | [] => 0
  | e :: rest => (if heavy e.tag then 1 else e.heavyBelow) + heavyAmong rest
end

mutual
/-- There is a first child that is heavy, other than below heavy elements. -/
def leadsHeavy : Element → Bool
  | ⟨_, _, _, children⟩ => children.head?.any (heavy ·.tag) || anyLeadsHeavy children

def anyLeadsHeavy : List Element → Bool
  | [] => false
  | e :: rest => (!heavy e.tag && e.leadsHeavy) || anyLeadsHeavy rest
end

@[simp] theorem heavyAmong_append (es fs : List Element) :
    heavyAmong heavy (es ++ fs) = heavyAmong heavy es + heavyAmong heavy fs := by
  induction es with
  | nil => rw [List.nil_append, heavyAmong, Nat.zero_add]
  | cons e es ih => rw [List.cons_append, heavyAmong, heavyAmong, ih, Nat.add_assoc]

mutual
/-- The second tree is the first one without its heavy elements. Where the first
child is heavy, the text may go on after it. -/
inductive Prunes : Element → Element → Prop
  | intro {tag : String} {attributes : List (String × String)} {text : String}
      {children kept : List Element} (tail : String) (below : PrunesAll children kept)
      (ends : children.head?.any (heavy ·.tag) = false → tail = "") :
      Prunes ⟨tag, attributes, text, children⟩ ⟨tag, attributes, text ++ tail, kept⟩

inductive PrunesAll : List Element → List Element → Prop
  | nil : PrunesAll [] []
  | drop {e : Element} {es kept : List Element} (isHeavy : heavy e.tag = true)
      (rest : PrunesAll es kept) : PrunesAll (e :: es) kept
  | keep {e e' : Element} {es kept : List Element} (light : heavy e.tag = false)
      (first : Prunes e e') (rest : PrunesAll es kept) : PrunesAll (e :: es) (e' :: kept)
end

variable {heavy}

mutual
theorem Prunes.eq_prune : {e kept : Element} → Prunes heavy e kept → e.leadsHeavy heavy = false →
    kept = e.prune heavy
  | _, _, .intro tail below ends, plain => by
    rw [leadsHeavy, Bool.or_eq_false_iff] at plain
    rw [prune, ends plain.1, String.append_empty, below.eq_pruneAll plain.2]

theorem PrunesAll.eq_pruneAll : {es kept : List Element} → PrunesAll heavy es kept →
    anyLeadsHeavy heavy es = false → kept = pruneAll heavy es
  | _, _, .nil, _ => rfl
  | _, _, .drop isHeavy rest, plain => by
    rw [anyLeadsHeavy, Bool.or_eq_false_iff] at plain
    rw [pruneAll, if_pos isHeavy, rest.eq_pruneAll plain.2]
  | _, _, .keep light first rest, plain => by
    rw [anyLeadsHeavy, light, Bool.or_eq_false_iff, Bool.not_false, Bool.true_and] at plain
    rw [pruneAll, light, if_neg Bool.false_ne_true, first.eq_prune plain.1,
      rest.eq_pruneAll plain.2]
end

theorem PrunesAll.append {es kept fs kept' : List Element} :
    PrunesAll heavy es kept → PrunesAll heavy fs kept' →
      PrunesAll heavy (es ++ fs) (kept ++ kept')
  | .nil, later => later
  | .drop isHeavy rest, later => .drop isHeavy (rest.append later)
  | .keep light first rest, later => .keep light first (rest.append later)

end Element

namespace Markup
open Text

def keepAll (_ : String) : Bool := false

def Item.children (items : List Item) : List Element := items.filterMap Item.child?

@[simp] theorem Item.children_append (items more : List Item) :
    children (items ++ more) = children items ++ children more :=
  List.filterMap_append

@[simp] theorem Item.children_text (part : String) (items : List Item) :
    children (.text part :: items) = children items := rfl

@[simp] theorem Item.children_child (e : Element) (items : List Item) :
    children (.child e :: items) = e :: children items := rfl

@[simp] theorem Item.leadingText_text (part : String) (items : List Item) :
    leadingText (.text part :: items) =
      (if isBlankText part then "" else part) ++ leadingText items := rfl

@[simp]
theorem Item.tag_assemble (tag : String) (attributes : List (String × String)) (items : List Item) :
    (assemble tag attributes items).tag = tag := rfl

section Readings
variable {heavy : String → Bool} {source : ByteArray}

private theorem Node.items_keepAll {n : Node} {parts : TagParts} (tagged : n.parts? = some parts) :
    n.items keepAll source = [.child (Item.assemble (parts.tag source) (parts.values source)
      (Forest.items keepAll source n.content))] := by
  rw [Node.items_of_tagged keepAll source tagged, if_neg]
  exact Bool.false_ne_true

/-- Without the heavy elements the text ahead of the first child can only get
longer, and it does not where that child is kept. -/
theorem Forest.leadingText_goes_on (nodes : List Node) :
    ∃ tail, Item.leadingText (Forest.items heavy source nodes) =
        Item.leadingText (Forest.items keepAll source nodes) ++ tail ∧
      ((Item.children (Forest.items keepAll source nodes)).head?.any (heavy ·.tag) = false →
        tail = "") := by
  induction nodes with
  | nil => exact ⟨"", rfl, fun _ => rfl⟩
  | cons n rest ih =>
    rw [Forest.items, Forest.items]
    cases n with
    | leaf l =>
      obtain ⟨tail, goes, ends⟩ := ih
      rw [Node.items, Node.items]
      cases l with
      | text span | cdata span =>
        rw [Leaf.items, List.singleton_append, List.singleton_append, Item.leadingText_text,
          Item.leadingText_text, goes, Item.children_text, ← String.append_assoc]
        exact ⟨tail, rfl, ends⟩
      | comment span | instruction span => exact ⟨tail, goes, ends⟩
    | empty parts stop | element parts stop content close =>
      rw [Node.items_keepAll rfl, Node.items_of_tagged heavy source rfl]
      cases tag : heavy (parts.tag source) with
      | true =>
        -- the child is gone, so that whatever text follows it is ahead of the next one
        refine ⟨_, String.empty_append.symm, fun plain => ?_⟩
        rw [List.singleton_append, Item.children_child, List.head?_cons, Option.any_some,
          Item.tag_assemble, tag] at plain
        contradiction
      | false => exact ⟨"", rfl, fun _ => rfl⟩

private theorem Item.assemble_prunes {items kept : List Item} (tag : String)
    (attributes : List (String × String))
    (below : Element.PrunesAll heavy (children items) (children kept))
    (text : ∃ tail, leadingText kept = leadingText items ++ tail ∧
      ((children items).head?.any (heavy ·.tag) = false → tail = "")) :
    Element.Prunes heavy (assemble tag attributes items) (assemble tag attributes kept) := by
  obtain ⟨tail, goes, ends⟩ := text
  rw [assemble, assemble, goes]
  exact .intro tail below ends

private theorem Node.prunes_of_content {n : Node} {parts : TagParts}
    (tagged : n.parts? = some parts)
    (below : Element.PrunesAll heavy (Item.children (Forest.items keepAll source n.content))
      (Item.children (Forest.items heavy source n.content))) :
    Element.PrunesAll heavy (Item.children (n.items keepAll source))
      (Item.children (n.items heavy source)) := by
  rw [Node.items_keepAll tagged, Node.items_of_tagged heavy source tagged]
  cases tag : heavy (parts.tag source) with
  | true =>
    rw [if_pos rfl, Item.children_child]
    exact .drop (by rw [Item.tag_assemble, tag]) .nil
  | false =>
    rw [if_neg Bool.false_ne_true, Item.children_child, Item.children_child]
    have first := Item.assemble_prunes (parts.tag source) (parts.values source) below
      (Forest.leadingText_goes_on n.content)
    exact .keep (by rw [Item.tag_assemble, tag]) first .nil

mutual
theorem Node.prunes : (n : Node) →
    Element.PrunesAll heavy (Item.children (n.items keepAll source))
      (Item.children (n.items heavy source))
  | .leaf l => by cases l <;> exact .nil
  | .empty _ _ => Node.prunes_of_content rfl .nil
  | .element _ _ content _ => Node.prunes_of_content rfl (Forest.prunes content)

theorem Forest.prunes : (nodes : List Node) →
    Element.PrunesAll heavy (Item.children (Forest.items keepAll source nodes))
      (Item.children (Forest.items heavy source nodes))
  | [] => .nil
  | n :: rest => by
    rw [Forest.items, Forest.items, Item.children_append, Item.children_append]
    exact (Node.prunes n).append (Forest.prunes rest)
end

private theorem Node.count_of_content {n : Node} {parts : TagParts} (tagged : n.parts? = some parts)
    (below : Element.heavyAmong heavy (Item.children (Forest.items keepAll source n.content)) =
      Forest.discarded heavy source n.content) :
    Element.heavyAmong heavy (Item.children (n.items keepAll source)) =
      n.discarded heavy source := by
  rw [Node.items_keepAll tagged, Node.discarded_of_tagged heavy source tagged, ← below,
    Item.children_child, Element.heavyAmong, Item.tag_assemble]
  rfl

mutual
theorem Node.heavyAmong_children : (n : Node) →
    Element.heavyAmong heavy (Item.children (n.items keepAll source)) = n.discarded heavy source
  | .leaf l => by cases l <;> rfl
  | .empty _ _ => Node.count_of_content rfl rfl
  | .element _ _ content _ => Node.count_of_content rfl (Forest.heavyAmong_children content)

theorem Forest.heavyAmong_children : (nodes : List Node) →
    Element.heavyAmong heavy (Item.children (Forest.items keepAll source nodes)) =
      Forest.discarded heavy source nodes
  | [] => rfl
  | n :: rest => by
    rw [Forest.items, Item.children_append, Element.heavyAmong_append, Forest.discarded,
      Node.heavyAmong_children n, Forest.heavyAmong_children rest]
end

mutual
theorem Node.decodes_of_keepAll : (n : Node) → n.decodes keepAll source = true →
    n.decodes heavy source = true
  | .leaf _, decodes => decodes
  | .empty parts _, decodes => by
    have values : parts.decodes source = true := decodes
    rw [Node.decodes, values, Bool.or_true]
  | .element parts _ content _, decodes => by
    have inside : (parts.decodes source && Forest.decodes keepAll source content) = true := decodes
    rw [Bool.and_eq_true] at inside
    rw [Node.decodes, inside.1, Forest.decodes_of_keepAll content inside.2, Bool.and_true,
      Bool.or_true]

theorem Forest.decodes_of_keepAll : (nodes : List Node) →
    Forest.decodes keepAll source nodes = true → Forest.decodes heavy source nodes = true
  | [], _ => rfl
  | n :: rest, decodes => by
    rw [Forest.decodes, Bool.and_eq_true] at decodes ⊢
    exact ⟨Node.decodes_of_keepAll n decodes.1, Forest.decodes_of_keepAll rest decodes.2⟩
end

mutual
theorem Node.depth_le_keepAll : (n : Node) → n.depth heavy source ≤ n.depth keepAll source
  | .leaf _ => Nat.le_refl 0
  | .empty parts _ => by
    change _ ≤ 1
    rw [Node.depth]
    split <;> decide
  | .element parts _ content _ => by
    have below := Forest.depth_le_keepAll content
    change _ ≤ Forest.depth keepAll source content + 1
    rw [Node.depth]
    split <;> omega

theorem Forest.depth_le_keepAll : (nodes : List Node) →
    Forest.depth heavy source nodes ≤ Forest.depth keepAll source nodes
  | [] => Nat.le_refl 0
  | n :: rest => by
    have first := Node.depth_le_keepAll n
    have later := Forest.depth_le_keepAll rest
    rw [Forest.depth, Forest.depth]
    omega
end

theorem Node.prunes_of_items {n : Node} {full : Element}
    (kept : n.isKept keepAll source = true)
    (whole : n.items keepAll source = [.child full]) (light : heavy full.tag = false) :
    n.isKept heavy source = true ∧ n.discarded heavy source = full.heavyBelow heavy ∧
      ∃ e, n.items heavy source = [.child e] ∧ full.Prunes heavy e := by
  obtain ⟨parts, tagged, _⟩ := n.isKept_iff.mp kept
  have tag : heavy (parts.tag source) = false := by
    have child := (items_keepAll tagged).symm.trans whole
    rwa [← Item.child.inj (List.cons.inj child).1, Item.tag_assemble] at light
  refine ⟨n.isKept_iff.mpr ⟨parts, tagged, tag⟩, ?_, ?_⟩
  · rw [← Node.heavyAmong_children n, whole]
    change (if heavy full.tag = true then 1 else full.heavyBelow heavy) + 0 = _
    rw [light, if_neg Bool.false_ne_true, Nat.add_zero]
  · have prunes : Element.PrunesAll heavy (Item.children (n.items keepAll source))
      (Item.children (n.items heavy source)) := n.prunes
    rw [whole, items_of_tagged heavy source tagged, tag] at prunes
    rw [items_of_tagged heavy source tagged, tag]
    cases prunes with
    | drop isHeavy => exact nomatch light.symm.trans isHeavy
    | keep _ first => exact ⟨_, rfl, first⟩

@[simp] theorem Forest.discarded_append (nodes more : List Node) :
    Forest.discarded heavy source (nodes ++ more) =
      Forest.discarded heavy source nodes + Forest.discarded heavy source more := by
  induction nodes with
  | nil => rw [List.nil_append, Forest.discarded, Nat.zero_add]
  | cons n rest ih => rw [List.cons_append, Forest.discarded, Forest.discarded, ih, Nat.add_assoc]

end Readings

section Loading
variable {heavy : String → Bool} {source : String} {before after : List Node} {root : Node}

private theorem Parse.leaves_before (parse : Parse keepAll source before root after) :
    ∀ n ∈ before, n.isElement = false := by
  intro n ahead
  have out := parse.heavyBefore n ahead
  cases n with
  | leaf l => rfl
  | empty | element => contradiction

theorem Parse.prune (parse : Parse keepAll source before root after)
    (kept : root.isKept heavy source.toByteArray = true) :
    Parse heavy source before root after where
  matched := parse.matched
  heavyBefore n ahead := by
    have leaf := parse.leaves_before n ahead
    cases n with
    | leaf l => rfl
    | empty | element => contradiction
  keptRoot := kept
  noneAfter := parse.noneAfter
  blankOutside := parse.blankOutside
  decodes := root.decodes_of_keepAll parse.decodes
  shallow := Nat.le_trans root.depth_le_keepAll parse.shallow
  clean := parse.clean
  reports := parse.reports

theorem Parse.discarded_eq (parse : Parse keepAll source before root after) :
    Forest.discarded heavy source.toByteArray (before ++ root :: after) =
      root.discarded heavy source.toByteArray := by
  rw [Forest.discarded_append, Forest.discarded, Forest.discarded_of_leaves parse.leaves_before,
    Forest.discarded_of_leaves parse.noneAfter, Nat.zero_add, Nat.add_zero]

end Loading

/-- A source that loads with everything in it, and whose root is not heavy, loads
without the heavy elements as well. What is left is the whole tree pruned, the
number of elements taken out is right, and both trees are readings of one forest.
The texts differ only where the first child of an element is heavy. -/
theorem loadText_prunes (source : String) (full : Project)
    (loads : load keepAll (dropMark source) = .ok full) (light : isHeavy full.root.tag = false) :
    ∃ kept, loadText source = .ok ⟨kept, full.root.heavyBelow isHeavy⟩ ∧
      full.root.Prunes isHeavy kept ∧
      (full.root.leadsHeavy isHeavy = false → kept = full.root.prune isHeavy) ∧
      ∃ before root after, Parse keepAll (dropMark source) before root after ∧
        root.items keepAll (dropMark source).toByteArray = [.child full.root] ∧
        root.items isHeavy (dropMark source).toByteArray = [.child kept] := by
  obtain ⟨before, root, after, parse, whole, _⟩ := (load_eq_ok_iff keepAll _ full).mp loads
  obtain ⟨keptRoot, count, kept, items, prunes⟩ :=
    Node.prunes_of_items parse.keptRoot whole light
  have loaded := (load_eq_ok_iff isHeavy (dropMark source) ⟨kept, full.root.heavyBelow isHeavy⟩).mpr
    ⟨before, root, after, parse.prune keptRoot, items, parse.discarded_eq.trans count⟩
  exact ⟨kept, loaded, prunes, prunes.eq_prune, before, root, after, parse, whole, items⟩

theorem loadText_prunes_after_child :
    load keepAll (dropMark "<l>a<b/><sound/>c</l>") =
        .ok ⟨⟨"l", [], "a", [⟨"b", [], "", []⟩, ⟨"sound", [], "", []⟩]⟩, 0⟩ ∧
      loadText "<l>a<b/><sound/>c</l>" = .ok ⟨⟨"l", [], "a", [⟨"b", [], "", []⟩]⟩, 1⟩ := by
  have loads : load keepAll (dropMark "<l>a<b/><sound/>c</l>") =
      .ok ⟨⟨"l", [], "a", [⟨"b", [], "", []⟩, ⟨"sound", [], "", []⟩]⟩, 0⟩ := rfl
  obtain ⟨kept, loaded, _, plain, _⟩ := loadText_prunes "<l>a<b/><sound/>c</l>" _ loads rfl
  rw [plain rfl] at loaded
  exact ⟨loads, loaded⟩

theorem loadText_text_after_heavy :
    load keepAll "<l><costume/>tail</l>" = .ok ⟨⟨"l", [], "", [⟨"costume", [], "", []⟩]⟩, 0⟩ ∧
      loadText "<l><costume/>tail</l>" = .ok ⟨⟨"l", [], "tail", []⟩, 1⟩ ∧
      Element.prune isHeavy ⟨"l", [], "", [⟨"costume", [], "", []⟩]⟩ = ⟨"l", [], "", []⟩ :=
  ⟨rfl, rfl, rfl⟩

end Markup
end Variability
