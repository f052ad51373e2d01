import Mathlib.Data.List.Nodup
import Mathlib.Data.List.FinRange
import Mathlib.Data.List.Flatten
import Mathlib.Data.List.Lex
import Mathlib.Data.List.OfFn
import Variability.Proofs.Element.Descendants

/-! Positions in a tree. Equal elements can stand at several positions, so a position is
the way to it from the root, child by child; it is searched from like the element there.
Forgetting the positions gives back the search among elements. -/
namespace Variability
namespace Element

def at? : Element → List Nat → Option Element
  | e, [] => some e
  | e, i :: way => e.children[i]?.bind (·.at? way)

@[simp] theorem at?_append (e : Element) (way more : List Nat) :
    e.at? (way ++ more) = (e.at? way).bind (·.at? more) := by
  induction way generalizing e with
  | nil => rfl
  | cons i way ih =>
    rw [List.cons_append, at?, at?]
    cases e.children[i]? with
    | none => rfl
    | some child => exact ih child

private theorem size_lt_of_mem_children {e child : Element} (listed : child ∈ e.children) :
    child.size < e.size := by
  obtain ⟨before, after, children⟩ := List.append_of_mem listed
  rw [size_eq e, children, sizes_append, sizes]
  omega

end Element

/-- A way from the root, and the element that it leads to. -/
structure Spot (root : Element) where
  path : List Nat
  element : Element
  reached : root.at? path = some element

namespace Spot
variable {root : Element}

theorem path_injective : Function.Injective (@path root) := by
  rintro ⟨way, e, reached⟩ ⟨_, f, other⟩ rfl
  rw [reached, Option.some.injEq] at other
  subst other
  rfl

def top (root : Element) : Spot root := ⟨[], root, rfl⟩

def child (s : Spot root) (i : Fin s.element.children.length) : Spot root where
  path := s.path ++ [i.val]
  element := s.element.children.get i
  reached := by
    rw [Element.at?_append, s.reached, Option.bind_some, Element.at?,
      List.getElem?_eq_getElem i.isLt]
    rfl

def children (s : Spot root) : List (Spot root) := List.ofFn s.child

@[simp]
theorem map_element_children (s : Spot root) : s.children.map element = s.element.children := by
  rw [children, List.map_ofFn]
  exact List.ofFn_get _

private theorem exists_child {s t : Spot root} {i : Nat} {more : List Nat}
    (way : t.path = s.path ++ i :: more) : ∃ c ∈ s.children, c.path = s.path ++ [i] := by
  have reached := t.reached
  rw [way, Element.at?_append, s.reached, Option.bind_some, Element.at?] at reached
  obtain ⟨_, found, _⟩ := Option.bind_eq_some_iff.mp reached
  obtain ⟨bound, _⟩ := List.getElem?_eq_some_iff.mp found
  exact ⟨s.child ⟨i, bound⟩, List.mem_ofFn.mpr ⟨_, rfl⟩, rfl⟩

@[simp]
theorem mem_children_iff (s c : Spot root) : c ∈ s.children ↔ ∃ i, c.path = s.path ++ [i] := by
  constructor
  · intro listed
    obtain ⟨i, rfl⟩ := List.mem_ofFn.mp listed
    exact ⟨i.val, rfl⟩
  · rintro ⟨i, further⟩
    obtain ⟨d, listed, same⟩ := exists_child further
    rwa [path_injective (further.trans same.symm)]

theorem parent_unique {s t c : Spot root} (one : c ∈ s.children) (other : c ∈ t.children) :
    s = t := by
  obtain ⟨i, left⟩ := (mem_children_iff s c).mp one
  obtain ⟨j, right⟩ := (mem_children_iff t c).mp other
  rw [left] at right
  exact path_injective (List.append_inj_left' right rfl)

theorem nodup_children (s : Spot root) : s.children.Nodup := by
  apply List.nodup_ofFn_ofInjective
  intro i j same
  have paths := congrArg path same
  exact Fin.ext (List.singleton_inj.mp (List.append_cancel_left paths))

private theorem size_lt_of_mem_children {s c : Spot root} (listed : c ∈ s.children) :
    c.element.size < s.element.size := by
  apply Element.size_lt_of_mem_children
  rw [← map_element_children]
  exact List.mem_map_of_mem listed

def descendants (s : Spot root) : List (Spot root) :=
  s :: s.children.attach.flatMap fun c => c.val.descendants
termination_by s.element.size
decreasing_by exact size_lt_of_mem_children c.property

theorem descendants_eq (s : Spot root) :
    s.descendants = s :: s.children.flatMap descendants := by
  rw [descendants, List.flatMap_subtype (g := descendants) (fun _ _ => rfl), List.unattach_attach]

@[elab_as_elim]
theorem children_induction {P : Spot root → Prop}
    (step : ∀ s, (∀ c ∈ s.children, P c) → P s) (s : Spot root) : P s :=
  step s fun c _ => children_induction step c
termination_by s.element.size
decreasing_by exact size_lt_of_mem_children (by assumption)

@[simp] theorem map_element_descendants (s : Spot root) :
    s.descendants.map element = s.element.descendants := by
  induction s using children_induction with
  | step s ih =>
    rw [descendants_eq, Element.descendants_eq, ← map_element_children, List.map_cons,
      List.map_flatMap, List.flatMap_map]
    congr 1
    exact List.flatMap_congr ih

@[simp] theorem mem_descendants_iff (s t : Spot root) : t ∈ s.descendants ↔ s.path <+: t.path := by
  induction s using children_induction with
  | step s ih =>
    rw [descendants_eq, List.mem_cons, List.mem_flatMap]
    constructor
    · rintro (rfl | ⟨c, listed, below⟩)
      · exact List.prefix_rfl
      · obtain ⟨i, further⟩ := (mem_children_iff s c).mp listed
        have := (ih c listed).mp below
        rw [further] at this
        exact (List.prefix_append _ _).trans this
    · rintro ⟨more, way⟩
      cases more with
      | nil => exact .inl (path_injective (by rw [← way, List.append_nil]))
      | cons i more =>
        -- the first step leads to a child, the others on from there
        obtain ⟨c, listed, first⟩ := exists_child way.symm
        refine .inr ⟨c, listed, (ih c listed).mpr ⟨more, ?_⟩⟩
        rw [first, ← way]
        exact List.append_assoc s.path [i] more

theorem nodup_descendants (s : Spot root) : s.descendants.Nodup := by
  induction s using children_induction with
  | step s ih =>
    rw [descendants_eq, List.nodup_cons, List.nodup_flatMap]
    refine ⟨fun inside => ?_, ih, ?_⟩
    · obtain ⟨c, listed, below⟩ := List.mem_flatMap.mp inside
      obtain ⟨i, further⟩ := (mem_children_iff s c).mp listed
      have := ((mem_descendants_iff c s).mp below).length_le
      rw [further, List.length_append, List.length_singleton] at this
      omega
    · apply s.nodup_children.pairwise_of_forall_ne
      intro c one d other different t below also
      obtain ⟨i, left⟩ := (mem_children_iff s c).mp one
      obtain ⟨j, right⟩ := (mem_children_iff s d).mp other
      have level : c.path.length = d.path.length := by
        rw [left, right, List.length_append, List.length_append]
        rfl
      apply different
      apply path_injective
      exact (List.prefix_of_prefix_length_le ((mem_descendants_iff c t).mp below)
        ((mem_descendants_iff d t).mp also) level.le).eq_of_length level

def properDescendants (s : Spot root) : List (Spot root) := s.descendants.drop 1

@[simp] theorem map_element_properDescendants (s : Spot root) :
    s.properDescendants.map element = s.element.properDescendants := by
  rw [properDescendants, List.map_drop, map_element_descendants]
  rfl

theorem nodup_properDescendants (s : Spot root) : s.properDescendants.Nodup :=
  s.nodup_descendants.sublist (List.drop_sublist 1 _)

@[simp] theorem mem_properDescendants_iff (s t : Spot root) :
    t ∈ s.properDescendants ↔ ∃ i more, t.path = s.path ++ i :: more := by
  rw [properDescendants, descendants_eq, List.drop_one, List.tail_cons, List.mem_flatMap]
  simp only [mem_descendants_iff]
  constructor
  · rintro ⟨c, listed, more, way⟩
    obtain ⟨i, further⟩ := (mem_children_iff s c).mp listed
    exact ⟨i, more, by rw [← way, further, List.append_assoc, List.singleton_append]⟩
  · rintro ⟨i, more, way⟩
    obtain ⟨c, listed, first⟩ := exists_child way
    exact ⟨c, listed, more, by rw [way, first, List.append_assoc, List.singleton_append]⟩

theorem mem_properDescendants_of_deeper {s t : Spot root} (way : s.path <+: t.path)
    (different : s ≠ t) : t ∈ s.properDescendants := by
  obtain ⟨more, way⟩ := way
  cases more with
  | nil => exact (different (path_injective (by rw [← way, List.append_nil]))).elim
  | cons i more => exact (mem_properDescendants_iff s t).mpr ⟨i, more, way.symm⟩

theorem prefix_of_mem_properDescendants {s t : Spot root} (below : t ∈ s.properDescendants) :
    s.path <+: t.path := by
  obtain ⟨i, more, way⟩ := (mem_properDescendants_iff s t).mp below
  exact ⟨i :: more, way.symm⟩

theorem ne_of_mem_properDescendants {s t : Spot root} (below : t ∈ s.properDescendants) :
    s ≠ t := by
  rintro rfl
  obtain ⟨i, more, way⟩ := (mem_properDescendants_iff s s).mp below
  exact List.cons_ne_nil i more (List.self_eq_append_right.mp way)

theorem mem_properDescendants_trans {s t u : Spot root} (below : t ∈ s.properDescendants)
    (further : u ∈ t.properDescendants) : u ∈ s.properDescendants := by
  obtain ⟨i, more, way⟩ := (mem_properDescendants_iff s t).mp below
  obtain ⟨j, rest, on⟩ := (mem_properDescendants_iff t u).mp further
  refine (mem_properDescendants_iff s u).mpr ⟨i, more ++ j :: rest, ?_⟩
  rw [on, way, List.append_assoc, List.cons_append]

theorem mem_properDescendants_of_mem_children {s c : Spot root} (listed : c ∈ s.children) :
    c ∈ s.properDescendants := by
  obtain ⟨i, further⟩ := (mem_children_iff s c).mp listed
  exact (mem_properDescendants_iff s c).mpr ⟨i, [], further⟩

/-- Document order: a spot comes ahead of what is below it and of what is below a later
sibling. -/
def Before (s t : Spot root) : Prop := List.Lex (fun i j => i < j) s.path t.path

private theorem before_asymm {s t : Spot root} (first : s.Before t) : ¬ t.Before s :=
  List.lt_asymm first

theorem pairwise_descendants (s : Spot root) : s.descendants.Pairwise Before := by
  induction s using children_induction with
  | step s ih =>
    rw [descendants_eq, List.pairwise_cons, List.pairwise_flatMap]
    refine ⟨fun t inside => ?_, ih, ?_⟩
    · obtain ⟨c, listed, below⟩ := List.mem_flatMap.mp inside
      obtain ⟨i, further⟩ := (mem_children_iff s c).mp listed
      obtain ⟨more, way⟩ := (mem_descendants_iff c t).mp below
      have deeper := List.Lex.append_left (fun i j => i < j) (.nil (a := i) (l := more)) s.path
      rw [List.append_nil] at deeper
      rw [Before, ← way, further, List.append_assoc]
      exact deeper
    · rw [children, List.pairwise_ofFn]
      intro i j earlier t below u also
      obtain ⟨more, way⟩ := (mem_descendants_iff _ t).mp below
      obtain ⟨rest, way'⟩ := (mem_descendants_iff _ u).mp also
      rw [Before, ← way, ← way', child, child, List.append_assoc, List.append_assoc]
      have order : i.val < j.val := earlier
      exact List.Lex.append_left _ (.rel order) s.path

theorem pairwise_properDescendants (s : Spot root) : s.properDescendants.Pairwise Before :=
  s.pairwise_descendants.sublist (List.drop_sublist 1 _)

theorem find?_eq_some_iff {spots : List (Spot root)} (ordered : spots.Pairwise Before)
    (p : Spot root → Bool) (s : Spot root) :
    spots.find? p = some s ↔
      s ∈ spots ∧ p s = true ∧ ∀ t ∈ spots, p t = true → t = s ∨ s.Before t := by
  have sound {s : Spot root} (found : spots.find? p = some s) :
      s ∈ spots ∧ p s = true ∧ ∀ t ∈ spots, p t = true → t = s ∨ s.Before t := by
    obtain ⟨holds, front, back, split, skipped⟩ := List.find?_eq_some_iff_append.mp found
    refine ⟨List.mem_of_find?_eq_some found, holds, fun t listed also => ?_⟩
    rw [split, List.pairwise_append] at ordered
    rw [split, List.mem_append, List.mem_cons] at listed
    rcases listed with earlier | same | later
    · have := skipped t earlier
      rw [also] at this
      contradiction
    · exact .inl same
    · exact .inr (List.rel_of_pairwise_cons ordered.2.1 later)
  constructor
  · exact sound
  · rintro ⟨listed, holds, first⟩
    cases found : spots.find? p with
    | none => exact absurd holds (List.find?_eq_none.mp found s listed)
    | some t =>
      obtain ⟨listed', holds', first'⟩ := sound found
      rcases first t listed' holds' with same | ahead
      · rw [same]
      · rcases first' s listed holds with same | ahead'
        · rw [same]
        · exact absurd ahead' (before_asymm ahead)

def child? (s : Spot root) (tag : String) : Option (Spot root) :=
  s.children.find? (·.element.tag == tag)

def childrenNamed (s : Spot root) (tag : String) : List (Spot root) :=
  s.children.filter (·.element.tag == tag)

@[simp] theorem map_element_child? (s : Spot root) (tag : String) :
    (s.child? tag).map element = s.element.child? tag := by
  rw [Element.child?, ← map_element_children, List.find?_map]
  rfl

@[simp] theorem map_element_childrenNamed (s : Spot root) (tag : String) :
    (s.childrenNamed tag).map element = s.element.childrenNamed tag := by
  rw [Element.childrenNamed, ← map_element_children, List.filter_map]
  rfl

@[simp] theorem mem_childrenNamed_iff (s c : Spot root) (tag : String) :
    c ∈ s.childrenNamed tag ↔ c ∈ s.children ∧ c.element.tag = tag := by
  rw [childrenNamed, List.mem_filter, beq_iff_eq]

theorem mem_children_of_child? {s c : Spot root} {tag : String} (found : s.child? tag = some c) :
    c ∈ s.children ∧ c.element.tag = tag := by
  have tagged := List.find?_some (p := fun c : Spot root => c.element.tag == tag) found
  exact ⟨List.mem_of_find?_eq_some found, beq_iff_eq.mp tagged⟩

end Spot
end Variability
