import Variability.Element

/-! Trees that differ in one subtree, and trees that are the same but for the blanks
around their texts. -/
namespace Variability.Element

/-- The two trees are the same except at one place, where one has `e` and the other has
`f`. -/
inductive Swap (e f : Element) : Element → Element → Prop
  | here : Swap e f e f
  | inside {tag : String} {attributes : List (String × String)} {text : String}
      {before after : List Element} {c d : Element} (deeper : Swap e f c d) :
    Swap e f ⟨tag, attributes, text, before ++ c :: after⟩
      ⟨tag, attributes, text, before ++ d :: after⟩

mutual
def trimmed : Element → Element
  | ⟨tag, attributes, text, children⟩ => ⟨tag, attributes, Text.trim text, allTrimmed children⟩

def allTrimmed : List Element → List Element
  | [] => []
  | e :: rest => e.trimmed :: allTrimmed rest
end

@[simp] theorem allTrimmed_eq_map (es : List Element) : allTrimmed es = es.map trimmed := by
  induction es with
  | nil => rfl
  | cons e es ih => rw [allTrimmed, ih, List.map_cons]

variable {e f tree other : Element}

theorem Swap.trimmed_eq_iff (swap : Swap e f tree other) :
    other.trimmed = tree.trimmed ↔ f.trimmed = e.trimmed := by
  induction swap with
  | here => rfl
  | inside _ ih =>
    rw [← ih]
    simp [trimmed]

end Variability.Element
