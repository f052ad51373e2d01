import Variability.Script.Expression

/-! Where an element lies in a tree, said without the walk that lists the tree:
an element holds itself and whatever its children hold. -/
namespace Variability
namespace Element

inductive Holds : Element → Element → Prop
  | itself (e : Element) : Holds e e
  | inside {e child node : Element} : child ∈ e.children → Holds child node → Holds e node

theorem holds_iff (e node : Element) :
    e.Holds node ↔ node = e ∨ ∃ child ∈ e.children, child.Holds node := by
  constructor
  · intro held
    cases held with
    | itself => exact Or.inl rfl
    | inside listed deeper => exact Or.inr ⟨_, listed, deeper⟩
  · rintro (rfl | ⟨child, listed, deeper⟩)
    · exact .itself node
    · exact .inside listed deeper

theorem Holds.trans {tree node deeper : Element} (held : tree.Holds node)
    (further : node.Holds deeper) : tree.Holds deeper := by
  induction held with
  | itself => exact further
  | inside listed _ ih => exact .inside listed (ih further)

theorem holds_of_mem_children {e child : Element} (listed : child ∈ e.children) : e.Holds child :=
  .inside listed (.itself child)

theorem holds_of_child? {e child : Element} {tag : String} (found : e.child? tag = some child) :
    e.Holds child :=
  holds_of_mem_children (List.mem_of_find?_eq_some found)

theorem holds_of_mem_childrenNamed {e child : Element} {tag : String}
    (listed : child ∈ e.childrenNamed tag) : e.Holds child :=
  holds_of_mem_children (List.mem_filter.mp listed).1

@[simp] theorem mem_walk_iff (seen : Array Element) (pending : List Element) (node : Element) :
    node ∈ walk seen pending ↔ node ∈ seen ∨ ∃ e ∈ pending, e.Holds node := by
  fun_induction walk seen pending with
  | case1 seen => simp
  | case2 seen e pending ih =>
    rw [ih]
    simp only [Array.mem_push, List.mem_append, List.mem_cons, or_and_right, exists_or,
      exists_eq_left, holds_iff e node, or_assoc]

@[simp] theorem mem_descendants_iff (e node : Element) : node ∈ e.descendants ↔ e.Holds node := by
  rw [descendants, Array.mem_toList_iff, mem_walk_iff]
  simp

theorem holds_of_mem_properDescendants {e node : Element} (listed : node ∈ e.properDescendants) :
    e.Holds node :=
  (mem_descendants_iff e node).mp (List.mem_of_mem_drop listed)

@[simp] theorem walk_append (seen : Array Element) (first rest : List Element) :
    walk seen (first ++ rest) = walk (walk seen first) rest := by
  fun_induction walk seen first with
  | case1 seen => rfl
  | case2 seen e pending ih => rw [List.cons_append, walk, ← List.append_assoc, ih]

@[simp] theorem walk_append_seen (before seen : Array Element) (pending : List Element) :
    walk (before ++ seen) pending = before ++ walk seen pending := by
  fun_induction walk seen pending with
  | case1 seen => rw [walk]
  | case2 seen e pending ih => rw [walk, ← Array.append_push, ih]

@[simp] theorem toList_walk (seen : Array Element) (pending : List Element) :
    (walk seen pending).toList = seen.toList ++ pending.flatMap descendants := by
  induction pending generalizing seen with
  | nil => simp [walk]
  | cons e rest ih =>
    have first : walk seen [e] = seen ++ walk #[] [e] := by
      rw [← walk_append_seen, Array.append_empty]
    rw [← List.singleton_append, walk_append, ih, first, Array.toList_append, List.append_assoc]
    rfl

theorem descendants_eq (e : Element) :
    e.descendants = e :: e.children.flatMap descendants := by
  rw [descendants, walk, toList_walk, List.append_nil]
  rfl

theorem properDescendants_eq (e : Element) :
    e.properDescendants = e.children.flatMap descendants := by
  rw [properDescendants, descendants_eq, List.drop_one, List.tail_cons]

def Reads (tree : Element) (name : String) : Prop :=
  ∃ node, tree.Holds node ∧ node.tag = "block" ∧ node.attr? "var" = some name

@[simp] theorem variableName?_eq_some_iff (e : Element) (name : String) :
    e.variableName? = some name ↔ e.attr? "var" = some name ∧ name ≠ "" := by
  simp [variableName?, Option.filter_eq_some_iff]

end Element

@[simp] theorem mem_variableReads_iff (tree : Element) (name : String) :
    name ∈ variableReads tree ↔ tree.Reads name ∧ name ≠ "" := by
  simp only [variableReads, Element.descendantsNamed, List.mem_filterMap, List.mem_filter,
    Element.mem_descendants_iff, Element.variableName?_eq_some_iff, Element.Reads, beq_iff_eq]
  constructor
  · rintro ⟨node, ⟨held, block⟩, read, named⟩
    exact ⟨⟨node, held, block, read⟩, named⟩
  · rintro ⟨⟨node, held, block, read⟩, named⟩
    exact ⟨node, ⟨held, block⟩, read, named⟩

end Variability
