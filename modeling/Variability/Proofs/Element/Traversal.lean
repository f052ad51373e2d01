import Variability.Proofs.Element.Position

/-! The walk through a tree, one element at a time from a stack: the last element is given
out, and its children take its place in reverse, so that the first of them comes next.
What is given out is the list of the tree's elements in document order, so each position
of the tree comes once, and as many elements come as the tree has. -/
namespace Variability
namespace Element

/-- A walk under way: the elements that it has still to enter, the next one last. -/
structure Traversal where
  stack : Array Element

namespace Traversal

def start (e : Element) : Traversal := ⟨#[e]⟩

def next? (t : Traversal) : Option (Element × Traversal) :=
  t.stack.back?.map fun e => (e, ⟨t.stack.pop ++ e.children.reverse⟩)

def nth? (t : Traversal) : Nat → Option Element
  | 0 => t.next?.map Prod.fst
  | n + 1 => t.next?.bind fun entry => entry.2.nth? n

def pending (t : Traversal) : List Element := t.stack.toList.reverse.flatMap descendants

@[simp] theorem pending_start (e : Element) : (start e).pending = e.descendants := by
  rw [pending, start]
  exact List.flatMap_singleton descendants e

@[simp] theorem pending_push (stack : Array Element) (e : Element) :
    pending ⟨stack.push e⟩ = e :: pending ⟨stack ++ e.children.reverse⟩ := by
  simp only [pending, Array.toList_push, Array.toList_appendList, List.reverse_append,
    List.reverse_reverse, List.flatMap_append, List.reverse_singleton, List.flatMap_singleton,
    ← List.cons_append, ← descendants_eq]

private theorem next?_cases (t : Traversal) :
    t.next? = none ∧ t.pending = [] ∨
      ∃ e rest, t.next? = some (e, rest) ∧ t.pending = e :: rest.pending := by
  obtain ⟨stack⟩ := t
  cases last : stack.back? with
  | none =>
    obtain rfl := Array.back?_eq_none_iff.mp last
    exact .inl ⟨rfl, rfl⟩
  | some top =>
    obtain ⟨below, rfl⟩ := Array.back?_eq_some_iff.mp last
    refine .inr ⟨top, ⟨below ++ top.children.reverse⟩, ?_, pending_push below top⟩
    rw [next?, last, Array.pop_push]
    rfl

theorem nth?_eq_getElem?_pending (t : Traversal) (n : Nat) : t.nth? n = t.pending[n]? := by
  induction n generalizing t with
  | zero =>
    rw [nth?]
    obtain ⟨done, nothing⟩ | ⟨e, rest, given, first⟩ := t.next?_cases
    · rw [done, nothing]
      rfl
    · rw [given, first]
      rfl
  | succ n ih =>
    rw [nth?]
    obtain ⟨done, nothing⟩ | ⟨e, rest, given, first⟩ := t.next?_cases
    · rw [done, nothing]
      rfl
    · rw [given, first, List.getElem?_cons_succ]
      exact ih rest

end Traversal

@[simp] theorem size_walk (seen : Array Element) (pending : List Element) :
    (walk seen pending).size = seen.size + sizes pending := by
  fun_induction walk seen pending with
  | case1 seen => rfl
  | case2 seen e pending ih =>
    rw [ih, Array.size_push, sizes_append, sizes, size_eq e]
    omega

@[simp] theorem length_descendants (e : Element) : e.descendants.length = e.size := by
  rw [descendants, Array.length_toList, size_walk, sizes, sizes]
  exact Nat.zero_add e.size

/-- Taking a tree's elements from the stack gives its list of elements and then nothing:
the element, then child by child what is below it. That list goes once through all
positions of the tree, in document order, and is as long as the tree has elements. -/
theorem descendants_preorder (e : Element) :
    (∀ n, (Traversal.start e).nth? n = e.descendants[n]?) ∧
      e.descendants = e :: e.children.flatMap descendants ∧
      (∃ spots : List (Spot e), spots.map Spot.element = e.descendants ∧
        (∀ s, s ∈ spots) ∧ spots.Nodup ∧ spots.Pairwise Spot.Before) ∧
      e.descendants.length = e.size := by
  refine ⟨fun n => ?_, descendants_eq e, ?_, length_descendants e⟩
  · rw [Traversal.nth?_eq_getElem?_pending, Traversal.pending_start]
  · let root := Spot.top e
    refine ⟨root.descendants, Spot.map_element_descendants root, fun s => ?_,
      Spot.nodup_descendants root, Spot.pairwise_descendants root⟩
    exact (Spot.mem_descendants_iff root s).mpr List.nil_prefix

end Element
end Variability
