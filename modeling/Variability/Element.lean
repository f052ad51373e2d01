import Variability.Text.Blank

/-! Elements of a project: a tag, attributes in document order, the text ahead
of the first child, and the children. -/
namespace Variability

structure Element where
  tag : String
  attributes : List (String × String) := []
  text : String := ""
  children : List Element := []
  deriving Repr, Inhabited

namespace Element

/-- The first attribute of that name. -/
def attr? (e : Element) (name : String) : Option String :=
  e.attributes.lookup name

/-- The operation that a block stands for, without blanks around it; empty when
there is none. -/
def selector (e : Element) : String :=
  Text.trim ((e.attr? "s").getD "")

def variableName? (e : Element) : Option String :=
  (e.attr? "var").filter (· != "")

def trimmedText (e : Element) : String :=
  Text.trim e.text

/-- A block of the language itself or one that the project defines. -/
def isBlockLike (e : Element) : Bool :=
  e.tag == "block" || e.tag == "custom-block"

def child? (e : Element) (tag : String) : Option Element :=
  e.children.find? (·.tag == tag)

def childrenNamed (e : Element) (tag : String) : List Element :=
  e.children.filter (·.tag == tag)

def blockLikeChild? (e : Element) : Option Element :=
  e.children.find? isBlockLike

def optionText (e : Element) : String :=
  ((e.child? "option").map trimmedText).getD ""

mutual
def size : Element → Nat
  | ⟨_, _, _, children⟩ => sizes children + 1

def sizes : List Element → Nat
  | [] => 0
  | e :: rest => e.size + sizes rest
end

@[simp] theorem sizes_append (es fs : List Element) : sizes (es ++ fs) = sizes es + sizes fs := by
  induction es with
  | nil => simp [sizes]
  | cons e es ih => simp only [List.cons_append, sizes, ih]; omega

theorem size_eq (e : Element) : e.size = sizes e.children + 1 := by
  cases e; simp only [size]

/-- Takes the next element off the pending ones and puts its children in its
place, until none is left. -/
def walk (seen : Array Element) : List Element → Array Element
  | [] => seen
  | e :: pending => walk (seen.push e) (e.children ++ pending)
termination_by pending => sizes pending
decreasing_by
  simp only [sizes_append, sizes, size_eq e]
  omega

/-- The element and everything below it, in document order. -/
def descendants (e : Element) : List Element :=
  (walk #[] [e]).toList

def descendantsNamed (e : Element) (tag : String) : List Element :=
  e.descendants.filter (·.tag == tag)

def properDescendants (e : Element) : List Element :=
  e.descendants.drop 1

end Element
end Variability
