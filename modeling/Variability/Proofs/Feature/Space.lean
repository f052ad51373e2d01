import Mathlib.Algebra.BigOperators.Group.List.Basic
import Mathlib.Algebra.Order.BigOperators.GroupWithZero.List
import Mathlib.Algebra.Order.Ring.Nat
import Variability.Proofs.Analysis.Event
import Variability.Proofs.Feature.Combinations

/-! The size of the configuration space in closed form. A slider with two bounds that
leave room for a whole number has at least one setting and at most the largest count, so
a product that is stopped on the way is the whole product stopped once, and the order
of the sliders is of no account. -/
namespace Variability

namespace Decimal

private theorem div_le_roundDiv (tie : Tie) (num den : Nat) : num / den ≤ roundDiv tie num den := by
  unfold roundDiv
  dsimp only
  split
  · exact Nat.le_refl _
  split
  · exact Nat.le_succ _
  · cases tie with
    | toEven => exact Nat.le_add_right _ _
    | up => exact Nat.le_succ _

/-- Rounding keeps the leading digit, so no positive number becomes zero. -/
theorem roundToBinary64_pos {n : Nat} (positive : 0 < n) : 0 < roundToBinary64 n := by
  have unit_pos : 0 < twoTo (n.log2 - 52) := Nat.pow_pos (by decide)
  have unit_le : twoTo (n.log2 - 52) ≤ n := calc
    twoTo (n.log2 - 52) ≤ 2 ^ n.log2 := Nat.pow_le_pow_right (by decide) (Nat.sub_le _ _)
    _ ≤ n := Nat.log2_self_le (Nat.ne_of_gt positive)
  have quotient : 0 < n / twoTo (n.log2 - 52) := Nat.div_pos unit_le unit_pos
  exact Nat.mul_pos (Nat.lt_of_lt_of_le quotient (div_le_roundDiv .toEven _ _)) unit_pos

end Decimal

private theorem saturate_pos {n : Nat} (positive : 0 < n) : 0 < saturate n :=
  Nat.lt_min.mpr ⟨positive, by decide⟩

private theorem sliderStates_range {low high : Float} {n : Nat}
    (counted : sliderStates low high = some n) : 1 ≤ n ∧ n ≤ maxCount := by
  unfold sliderStates at counted
  dsimp only at counted
  split at counted
  · cases counted
  · obtain rfl := Option.some.inj counted
    exact ⟨saturate_pos (Decimal.roundToBinary64_pos (Nat.succ_pos _)), saturate_le _⟩

namespace Configured

def settings? (watcher : Element) : Option Nat :=
  if isSlider watcher then states? watcher else none

private theorem factor_eq (watcher : Element) : factor watcher = (settings? watcher).getD 1 := by
  unfold factor settings?
  cases isSlider watcher <;> rfl

theorem settings?_range {watcher : Element} {n : Nat} (counted : settings? watcher = some n) :
    1 ≤ n ∧ n ≤ maxCount := by
  unfold settings? states? at counted
  split at counted
  · obtain ⟨low, _, counted⟩ := Option.bind_eq_some_iff.mp counted
    obtain ⟨high, _, counted⟩ := Option.bind_eq_some_iff.mp counted
    exact sliderStates_range counted
  · cases counted

private theorem settings?_congr {v w : Element} (same : v.attributes = w.attributes) :
    settings? v = settings? w := by
  cases v
  cases w
  cases same
  rfl

private theorem prod_factor (watchers : List Element) :
    (watchers.map factor).prod = (watchers.filterMap settings?).prod := by
  induction watchers with
  | nil => rfl
  | cons watcher rest ih =>
    rw [List.map_cons, List.prod_cons, ih, factor_eq, List.filterMap_cons]
    cases settings? watcher with
    | none => exact Nat.one_mul _
    | some n => exact List.prod_cons.symm

def allSettings (root : Element) : List Nat := (Outline.watchers root).filterMap settings?

theorem combinations_eq_min (root : Element) :
    (collect root).combinations = min (allSettings root).prod maxCount := by
  rw [combinations_collect, prod_factor]
  rfl

theorem allSettings_range (root : Element) : ∀ n ∈ allSettings root, 1 ≤ n ∧ n ≤ maxCount := by
  intro n listed
  obtain ⟨watcher, _, counted⟩ := List.mem_filterMap.mp listed
  exact settings?_range counted

theorem allSettings_perm {root other : Element}
    (moved : ((Outline.watchers root).map Element.attributes).Perm
      ((Outline.watchers other).map Element.attributes)) :
    (allSettings root).Perm (allSettings other) := by
  -- an element that has nothing but the attributes stands for the watcher
  have bare (watchers : List Element) : watchers.filterMap settings? =
      (watchers.map Element.attributes).filterMap fun attributes =>
        settings? { tag := "watcher", attributes } := by
    rw [List.filterMap_map]
    refine List.filterMap_congr fun watcher _ => ?_
    rw [Function.comp_apply]
    exact settings?_congr rfl
  have moved := moved.filterMap fun attributes => settings? { tag := "watcher", attributes }
  rwa [← bare, ← bare] at moved

end Configured

theorem analyzeProject_totalCombinations_eq (settings : Settings) (p : Project) :
    (analyzeProject settings p).totalCombinations = (Configured.collect p.root).combinations := by
  rw [analyzeProject_eq]
  rfl

/-- The number of configurations is the product of the settings of all sliders that have
some, stopped at the largest 64-bit number. It is never zero, and moving the watchers
about in the project does not change it. -/
theorem analyzeProject_totalCombinations (settings : Settings) (p : Project) :
    let counts := (Outline.watchers p.root).filterMap Configured.settings?
    let total := (analyzeProject settings p).totalCombinations
    (∀ n ∈ counts, 1 ≤ n ∧ n ≤ 2 ^ 64 - 1) ∧
      total = min (2 ^ 64 - 1) counts.prod ∧
      1 ≤ total ∧ total ≤ 2 ^ 64 - 1 ∧
      ∀ q : Project, ((Outline.watchers q.root).map Element.attributes).Perm
          ((Outline.watchers p.root).map Element.attributes) →
        (analyzeProject settings q).totalCombinations = total := by
  intro counts total
  have range : ∀ n ∈ counts, 1 ≤ n ∧ n ≤ maxCount := Configured.allSettings_range p.root
  have closed : total = min (2 ^ 64 - 1) counts.prod := by
    rw [Nat.min_comm]
    exact (analyzeProject_totalCombinations_eq settings p).trans
      (Configured.combinations_eq_min p.root)
  have positive : 1 ≤ counts.prod := List.one_le_prod fun n listed => (range n listed).1
  refine ⟨range, closed, ?_, ?_, ?_⟩
  · rw [closed]
    exact Nat.le_min.mpr ⟨by decide, positive⟩
  · rw [closed]
    exact Nat.min_le_left _ _
  · intro q moved
    have same : (Configured.allSettings q.root).prod = counts.prod :=
      (Configured.allSettings_perm moved).prod_eq
    rw [analyzeProject_totalCombinations_eq, Configured.combinations_eq_min, same, Nat.min_comm,
      closed]
    rfl

theorem analyzeProject_totalCombinations_swapped :
    let size : Element := ⟨"watcher", [("style", "slider"), ("min", "1"), ("max", "5")], "", []⟩
    let speed : Element := ⟨"watcher", [("style", " Slider "), ("min", "0"), ("max", "2")], "", []⟩
    let p : Project := ⟨⟨"project", [], "", [size, speed]⟩, 0⟩
    let q : Project := ⟨⟨"project", [], "", [speed, size]⟩, 0⟩
    ((Outline.watchers q.root).map Element.attributes).Perm
        ((Outline.watchers p.root).map Element.attributes) ∧
      (analyzeProject {} p).totalCombinations = 15 ∧
      (analyzeProject {} q).totalCombinations = 15 := by
  intro size speed p q
  have inOrder : Outline.watchers p.root = [size, speed] := by
    simp [Outline.watchers, Element.descendantsNamed, Element.descendants_eq, p, size, speed]
  have swapped : Outline.watchers q.root = [speed, size] := by
    simp [Outline.watchers, Element.descendantsNamed, Element.descendants_eq, q, size, speed]
  have moved : ((Outline.watchers q.root).map Element.attributes).Perm
      ((Outline.watchers p.root).map Element.attributes) := by
    rw [inOrder, swapped]
    exact .swap _ _ _
  have counts : [size, speed].filterMap Configured.settings? = [5, 3] := by
    dsimp only [size, speed]
    decide +kernel
  obtain ⟨_, closed, _, _, same⟩ := analyzeProject_totalCombinations {} p
  have fifteen : (analyzeProject {} p).totalCombinations = 15 := by
    rw [closed, inOrder, counts]
    decide
  exact ⟨moved, fifteen, (same q moved).trans fifteen⟩

end Variability
