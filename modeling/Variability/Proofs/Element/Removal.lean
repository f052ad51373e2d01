import Variability.Proofs.Element.Position

/-! Taking an element out of a tree, with everything in it. The elements around it keep
their tags, attributes and texts, so what the tree answers to a question loses what the
element answers and nothing else. -/
namespace Variability
namespace Element

/-- The tree without child `i` of the element that the way leads to. -/
def without : Element → List Nat → Nat → Element
  | e, [], i => { e with children := e.children.eraseIdx i }
  | e, j :: way, i => { e with children := e.children.modify j fun child => child.without way i }

/-- What an element says of itself, whatever its children. -/
def face (e : Element) : String × List (String × String) × String :=
  (e.tag, e.attributes, e.text)

@[simp] theorem face_without (e : Element) (way : List Nat) (i : Nat) :
    (e.without way i).face = e.face := by
  cases way <;> rfl

section Answers
variable {α : Type} (ask : Element → Option α)

def answers (e : Element) : List α := e.descendants.filterMap ask

/-- The question looks no deeper than to what the children say of themselves. -/
def Shallow : Prop :=
  ∀ e f : Element, e.face = f.face → e.children.map face = f.children.map face → ask e = ask f

theorem answers_eq (e : Element) :
    e.answers ask = (ask e).toList ++ e.children.flatMap (answers ask) := by
  rw [answers, descendants_eq, List.filterMap_cons, List.filterMap_flatMap]
  cases ask e <;> rfl

theorem filterMap_descendantsNamed (tag : String) (e : Element) :
    (e.descendantsNamed tag).filterMap ask =
      e.answers fun node => if node.tag == tag then ask node else none :=
  List.filterMap_filter

end Answers

section Children
variable {children : List Element} {i : Nat} {child : Element}

private theorem children_split (listed : children[i]? = some child) :
    children.take i ++ child :: children.drop (i + 1) = children := by
  obtain ⟨bound, rfl⟩ := List.getElem?_eq_some_iff.mp listed
  rw [List.getElem_cons_drop, List.take_append_drop]

private theorem flatMap_children {α : Type} (listed : children[i]? = some child)
    (list : Element → List α) :
    children.flatMap list =
      (children.take i).flatMap list ++ (list child ++ (children.drop (i + 1)).flatMap list) := by
  rw [← List.flatMap_cons, ← List.flatMap_append, children_split listed]

private theorem children_modify (listed : children[i]? = some child) (change : Element → Element) :
    children.modify i change = children.take i ++ change child :: children.drop (i + 1) := by
  obtain ⟨bound, rfl⟩ := List.getElem?_eq_some_iff.mp listed
  exact List.modify_eq_take_cons_drop bound

end Children

/-- The answers of the element that is taken out stand in one piece among those of the
tree; without it the others stay, in their order. Only the parent may answer otherwise
than before, when its question is about the children. -/
theorem exists_answers_without {α : Type} {ask : Element → Option α} (shallow : Shallow ask)
    {parent removed : Element} {i : Nat} (listed : parent.children[i]? = some removed)
    (kept : ask (parent.without [] i) = ask parent) (way : List Nat) {root : Element}
    (found : root.at? way = some parent) :
    ∃ before after, root.answers ask = before ++ removed.answers ask ++ after ∧
      (root.without way i).answers ask = before ++ after := by
  induction way generalizing root with
  | nil =>
    cases found
    refine ⟨(ask parent).toList ++ (parent.children.take i).flatMap (answers ask),
      (parent.children.drop (i + 1)).flatMap (answers ask), ?_, ?_⟩
    · rw [answers_eq, flatMap_children listed]
      simp only [List.append_assoc]
    · rw [answers_eq, kept, without, List.eraseIdx_eq_take_drop_succ, List.flatMap_append,
        List.append_assoc]
  | cons j way ih =>
    obtain ⟨child, step, further⟩ := Option.bind_eq_some_iff.mp found
    obtain ⟨before, after, whole, rest⟩ := ih further
    -- only the child on the way changes, and that below what the question looks at
    have faces : (root.without (j :: way) i).children.map face = root.children.map face := by
      rw [without, children_modify step, List.map_append, List.map_cons, face_without,
        ← List.map_cons, ← List.map_append, children_split step]
    have same := shallow _ _ (face_without root (j :: way) i) faces
    refine ⟨(ask root).toList ++ (root.children.take j).flatMap (answers ask) ++ before,
      after ++ (root.children.drop (j + 1)).flatMap (answers ask), ?_, ?_⟩
    · rw [answers_eq, flatMap_children step, whole]
      simp only [List.append_assoc]
    · rw [answers_eq, same, without, children_modify step, List.flatMap_append,
        List.flatMap_cons, rest]
      simp only [List.append_assoc]

end Element
end Variability
