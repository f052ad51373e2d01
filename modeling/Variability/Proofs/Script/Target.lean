import Variability.Proofs.Element.Position
import Variability.Script.Resolution

/-! Which block an expression names that reads no variable. All the ways to look for it
come to one answer: a block of the project names itself, and any other expression the
first block below it that has a name. -/
namespace Variability

def Element.isNamed (e : Element) : Bool := e.tag == "custom-block" && e.selector != ""

structure Spot.IsFirstNamed {root : Element} (s : Spot root) : Prop where
  below : s.path ≠ []
  named : s.element.isNamed = true
  first : ∀ t : Spot root, t.path ≠ [] → t.element.isNamed = true → t = s ∨ s.Before t

@[simp] theorem mem_properDescendants_top_iff {root : Element} (s : Spot root) :
    s ∈ (Spot.top root).properDescendants ↔ s.path ≠ [] := by
  rw [Spot.mem_properDescendants_iff, List.ne_nil_iff_exists_cons]
  rfl

namespace Reason

def isKnown : Reason → Bool
  | .fromVariable _ | .directReference | .insideReification _ | .foundInSubtree => true
  | _ => false

def name? : Reason → Option String
  | .fromVariable name | .unboundVariable name => some name
  | _ => none

def wrapper? : Reason → Option String
  | .insideReification wrapper | .emptyReification wrapper => some wrapper
  | _ => none

end Reason

namespace Resolution

section Branches
variable {e : Element}

theorem firstNamed?_of_block (block : e.tag = "custom-block") (name : String) :
    firstNamed? e = some name ↔ e.selector = name ∧ name ≠ "" := by
  have single : firstNamed? e = if e.selector != "" then some e.selector else none := by
    rw [firstNamed?, if_pos (beq_iff_eq.mpr block), List.map_singleton, List.find?_singleton]
  rw [single, Option.ite_none_right_eq_some, bne_iff_ne, Option.some.injEq]
  constructor
  · rintro ⟨named, rfl⟩
    exact ⟨rfl, named⟩
  · rintro ⟨rfl, named⟩
    exact ⟨named, rfl⟩

theorem firstNamed?_eq_find? (other : e.tag ≠ "custom-block") :
    firstNamed? e = ((Spot.top e).properDescendants.find? (·.element.isNamed)).map
      (·.element.selector) := by
  have unnamed : ¬ e.isNamed = true := by
    rw [Element.isNamed, Bool.and_eq_true, beq_iff_eq]
    exact fun named => other named.1
  have filtered : (e.descendantsNamed "custom-block").find?
      ((fun selector => selector != "") ∘ Element.selector) =
        e.descendants.find? Element.isNamed := by
    have both : Element.isNamed = fun d => d.tag == "custom-block" && d.selector != "" := rfl
    rw [Element.descendantsNamed, List.find?_filter, both]
    simp only [Bool.decide_and, Bool.decide_eq_true, Function.comp_apply]
  have below : e.descendants.find? Element.isNamed = e.properDescendants.find? Element.isNamed := by
    rw [Element.descendants_eq, List.find?_cons_of_neg unnamed, ← Element.properDescendants_eq]
  have placed : (Spot.top e).properDescendants.map Spot.element = e.properDescendants :=
    Spot.map_element_properDescendants (Spot.top e)
  rw [firstNamed?, if_neg (by simpa using other), List.find?_map, filtered, below, ← placed,
    List.find?_map, Option.map_map]
  rfl

theorem target?_of_no_variable (bindings : Bindings) (unread : e.variableName? = none) :
    (ofElement bindings e).target? = firstNamed? e := by
  unfold ofElement
  rw [unread]
  dsimp only
  split
  case isTrue direct =>
    rw [Bool.and_eq_true, beq_iff_eq, bne_iff_ne] at direct
    exact ((firstNamed?_of_block direct.1 e.selector).mpr ⟨rfl, direct.2⟩).symm
  case isFalse =>
    split <;> cases firstNamed? e <;> rfl

theorem ofElement_of_no_variable (bindings other : Bindings) (unread : e.variableName? = none) :
    ofElement other e = ofElement bindings e := by
  unfold ofElement
  rw [unread]

theorem firstNamed?_eq_some_iff (other : e.tag ≠ "custom-block") (name : String) :
    firstNamed? e = some name ↔ ∃ s : Spot e, s.IsFirstNamed ∧ s.element.selector = name := by
  have found (s : Spot e) : (Spot.top e).properDescendants.find? (·.element.isNamed) = some s ↔
      s.IsFirstNamed := by
    rw [Spot.find?_eq_some_iff (Spot.pairwise_properDescendants _)]
    simp only [mem_properDescendants_top_iff]
    constructor
    · rintro ⟨below, named, first⟩
      exact ⟨below, named, first⟩
    · rintro ⟨below, named, first⟩
      exact ⟨below, named, first⟩
  rw [firstNamed?_eq_find? other, Option.map_eq_some_iff]
  simp only [found]

theorem isSome_firstNamed?_iff (other : e.tag ≠ "custom-block") :
    (firstNamed? e).isSome ↔ ∃ s : Spot e, s.path ≠ [] ∧ s.element.isNamed = true := by
  rw [firstNamed?_eq_find? other, Option.isSome_map, List.find?_isSome]
  simp only [mem_properDescendants_top_iff]

end Branches

/-- The reason goes with the label, and what it tells of the expression is true of it. -/
structure TellsOf (r : Resolution) (e : Element) : Prop where
  known : r.target?.isSome = r.reason.isKnown
  name : ∀ v, r.reason.name? = some v → e.attr? "var" = some v
  wrapper : ∀ w, r.reason.wrapper? = some w → e.selector = w

private theorem tellsOf_of_none {r : Resolution} (e : Element)
    (known : r.target?.isSome = r.reason.isKnown) (name : r.reason.name? = none)
    (wrapper : r.reason.wrapper? = none) : r.TellsOf e :=
  ⟨known, by simp [name], by simp [wrapper]⟩

theorem ofElement_tellsOf (bindings : Bindings) (e : Element) :
    (ofElement bindings e).TellsOf e := by
  unfold ofElement
  split
  case h_1 v read =>
    have written := ((Element.variableName?_eq_some_iff e v).mp read).1
    split <;>
      exact {
        known := rfl
        name := by rintro _ ⟨⟩; exact written
        wrapper := by rintro _ ⟨⟩ }
  case h_2 =>
    dsimp only
    split
    · exact tellsOf_of_none e rfl rfl rfl
    split
    · split <;>
        exact {
          known := rfl
          name := by rintro _ ⟨⟩
          wrapper := by rintro _ ⟨⟩; rfl }
    · split <;> exact tellsOf_of_none e rfl rfl rfl

/-- Without a variable the bindings do not matter. A block of the project stands for itself
if it has a name, and any other expression for the first block below it that has one. In
every case the resolution tells the variable or the wrapper of the expression itself. -/
theorem target_of_expression :
    (∀ target : Element, (∀ v, target.attr? "var" = some v → v = "") → ∀ bindings : Bindings,
      (∀ other, ofElement other target = ofElement bindings target) ∧
      (target.tag = "custom-block" → ∀ name,
        (ofElement bindings target).target? = some name ↔ target.selector = name ∧ name ≠ "") ∧
      (target.tag ≠ "custom-block" →
        ((ofElement bindings target).target?.isSome ↔
          ∃ s : Spot target, s.path ≠ [] ∧ s.element.isNamed = true) ∧
        ∀ name, (ofElement bindings target).target? = some name ↔
          ∃ s : Spot target, s.IsFirstNamed ∧ s.element.selector = name)) ∧
    ∀ (bindings : Bindings) (target : Option Element),
      (ofOption bindings target).target?.isSome = (ofOption bindings target).reason.isKnown ∧
      (∀ v, (ofOption bindings target).reason.name? = some v → ∃ e ∈ target, e.attr? "var" = some v) ∧
      ∀ wrapper, (ofOption bindings target).reason.wrapper? = some wrapper →
        ∃ e ∈ target, e.selector = wrapper := by
  constructor
  · intro target blank bindings
    have unread : target.variableName? = none := by
      rw [Option.eq_none_iff_forall_ne_some]
      intro v read
      obtain ⟨written, filled⟩ := (Element.variableName?_eq_some_iff target v).mp read
      exact filled (blank v written)
    refine ⟨fun other => ofElement_of_no_variable bindings other unread, ?_, ?_⟩
    · intro block
      rw [target?_of_no_variable bindings unread]
      exact firstNamed?_of_block block
    · intro other
      rw [target?_of_no_variable bindings unread]
      exact ⟨isSome_firstNamed?_iff other, firstNamed?_eq_some_iff other⟩
  · intro bindings target
    cases target with
    | none => exact ⟨rfl, by rintro _ ⟨⟩, by rintro _ ⟨⟩⟩
    | some e =>
      have tells := ofElement_tellsOf bindings e
      refine ⟨tells.known, ?_, ?_⟩
      · exact fun v told => ⟨e, rfl, tells.name v told⟩
      · exact fun w told => ⟨e, rfl, tells.wrapper w told⟩

theorem target_of_expression_inside_unnamed :
    let walk : Element := ⟨"custom-block", [("s", " walk ")], "", []⟩
    let unnamed : Element := ⟨"custom-block", [("s", " ")], "", [walk]⟩
    let jump : Element := ⟨"custom-block", [("s", "jump")], "", []⟩
    let target : Element := ⟨"block", [("s", "reifyScript"), ("var", "")], "", [unnamed, jump]⟩
    (∀ v, target.attr? "var" = some v → v = "") ∧ target.tag ≠ "custom-block" ∧
      (ofElement {} target).target? = some "walk" := by
  intro walk unnamed jump target
  have blank : ∀ v, target.attr? "var" = some v → v = "" := by
    intro v written
    exact (Option.some.inj written).symm
  have other : target.tag ≠ "custom-block" := by decide
  have told := ((target_of_expression.1 target blank {}).2.2 other).2 "walk"
  have order (path : List Nat) (e : Element) (reached : target.at? path = some e)
      (below : path ≠ []) (named : e.isNamed = true) :
      path = [0, 0] ∨ List.Lex (fun i j => i < j) [0, 0] path := by
    rcases path with _ | ⟨_ | _ | i, rest⟩
    · exact absurd rfl below
    · rcases rest with _ | ⟨_ | j, _ | ⟨k, rest⟩⟩
      · obtain rfl : unnamed = e := Option.some.inj reached
        exact absurd named (by decide)
      · exact .inl rfl
      all_goals contradiction
    · exact .inr (.rel Nat.zero_lt_one)
    · contradiction
  refine ⟨blank, other, told.mpr ⟨⟨[0, 0], walk, rfl⟩, ⟨by decide, by decide, ?_⟩, by decide⟩⟩
  intro t below named
  have placed := order t.path t.element t.reached below named
  exact placed.imp_left fun same => Spot.path_injective same

end Resolution
end Variability
