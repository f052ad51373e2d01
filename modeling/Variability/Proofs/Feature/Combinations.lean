import Mathlib.Algebra.BigOperators.Group.List.Basic
import Mathlib.Algebra.Order.Ring.Nat
import Variability.Proofs.Element.Removal
import Variability.Proofs.Feature.Configured

/-! The number of configurations, and what a watcher has to do with it. The number is
the product of the settings of all sliders, stopped at the largest count, whether or not
a slider names a variable; so taking a watcher away divides its settings out of the
product, and takes no variable away when it names none. -/
namespace Variability

theorem saturate_le (n : Nat) : saturate n ≤ maxCount := Nat.min_le_right n maxCount

private theorem saturate_of_le {n : Nat} (small : n ≤ maxCount) :
    saturate n = n := Nat.min_eq_left small

/-- Stopping on the way does not change where a product stops. -/
@[simp] theorem saturate_mul (m n : Nat) : saturate (saturate m * n) = saturate (m * n) := by
  rcases Nat.le_total m maxCount with small | large
  · rw [saturate_of_le small]
  · rcases Nat.eq_zero_or_pos n with rfl | positive
    · rw [Nat.mul_zero, Nat.mul_zero]
    · have stopped : saturate m = maxCount := Nat.min_eq_right large
      rw [stopped]
      have first : maxCount ≤ maxCount * n := Nat.le_mul_of_pos_right maxCount positive
      have second : maxCount ≤ m * n := first.trans (Nat.mul_le_mul_right n large)
      rw [saturate, saturate, Nat.min_eq_right first, Nat.min_eq_right second]

namespace Configured

/-- What a watcher multiplies the number of configurations by: its settings when it is a
slider with two bounds. -/
def factor (watcher : Element) : Nat :=
  if isSlider watcher then (states? watcher).getD 1 else 1

private theorem combinations_addWatcher (c : Configured) (watcher : Element)
    (small : c.combinations ≤ maxCount) :
    (c.addWatcher watcher).combinations = saturate (c.combinations * factor watcher) := by
  unfold addWatcher factor
  cases isSlider watcher with
  | false => simp [saturate_of_le small]
  | true => cases watched? watcher <;> rfl

private theorem combinations_foldl_addWatcher (watchers : List Element) (c : Configured)
    (small : c.combinations ≤ maxCount) :
    (watchers.foldl addWatcher c).combinations =
      saturate (c.combinations * (watchers.map factor).prod) := by
  induction watchers generalizing c with
  | nil => simp [saturate_of_le small]
  | cons watcher rest ih =>
    have first := combinations_addWatcher c watcher small
    have still : (c.addWatcher watcher).combinations ≤ maxCount := by
      rw [first]
      exact saturate_le _
    rw [List.foldl_cons, ih _ still, first, saturate_mul, List.map_cons, List.prod_cons,
      Nat.mul_assoc]

@[simp] theorem combinations_foldl_addAnswer (blocks : List Element) (c : Configured) :
    (blocks.foldl addAnswer c).combinations = c.combinations := by
  induction blocks generalizing c with
  | nil => rfl
  | cons block rest ih =>
    rw [List.foldl_cons, ih, addAnswer]
    cases answered? block <;> rfl

theorem combinations_collect (root : Element) :
    (collect root).combinations = saturate ((Outline.watchers root).map factor).prod := by
  rw [collect, combinations_foldl_addAnswer, combinations_foldl_addWatcher _ _ (by decide),
    Nat.one_mul]

def slider? (watcher : Element) : Option (String × FeatureSource) :=
  if isSlider watcher then
    (watched? watcher).map fun name =>
      (name, .slider ((watcher.attr? "min").bind readBound) ((watcher.attr? "max").bind readBound))
  else none

def answer? (block : Element) : Option (String × FeatureSource) :=
  (answered? block).map fun name => (name, .answer)

def enter (sources : Std.TreeMap String FeatureSource) (entry : String × FeatureSource) :
    Std.TreeMap String FeatureSource :=
  sources.insertIfNew entry.1 entry.2

private theorem sources_addWatcher (c : Configured) (watcher : Element) :
    (c.addWatcher watcher).sources = (slider? watcher).elim c.sources (enter c.sources) := by
  unfold addWatcher slider?
  cases isSlider watcher with
  | false => rfl
  | true => cases watched? watcher <;> rfl

private theorem sources_addAnswer (c : Configured) (block : Element) :
    (c.addAnswer block).sources = (answer? block).elim c.sources (enter c.sources) := by
  unfold addAnswer answer?
  cases answered? block <;> rfl

private theorem sources_foldl {step : Configured → Element → Configured}
    {named? : Element → Option (String × FeatureSource)}
    (enters : ∀ c e, (step c e).sources = (named? e).elim c.sources (enter c.sources))
    (elements : List Element) (c : Configured) :
    (elements.foldl step c).sources = (elements.filterMap named?).foldl enter c.sources := by
  induction elements generalizing c with
  | nil => rfl
  | cons e rest ih =>
    rw [List.foldl_cons, ih, enters, List.filterMap_cons]
    cases named? e <;> rfl

theorem sources_collect (root : Element) :
    (collect root).sources = ((Outline.watchers root).filterMap slider? ++
      (root.descendantsNamed "block").filterMap answer?).foldl enter {} := by
  rw [collect, sources_foldl sources_addAnswer, sources_foldl sources_addWatcher,
    List.foldl_append]

private theorem factor_congr {e f : Element} (same : e.face = f.face) : factor e = factor f := by
  cases e
  cases f
  cases same
  rfl

private theorem slider?_congr {e f : Element} (same : e.face = f.face) : slider? e = slider? f := by
  cases e
  cases f
  cases same
  rfl

private theorem shallow_answer? : Element.Shallow answer? := by
  rintro ⟨tag, attributes, text, children⟩ ⟨_, _, _, others⟩ same faces
  cases same
  -- the name and the value that are set are the first two children
  match children, others with
  | [], [] => rfl
  | [_], [_] => rfl
  | name :: value :: _, name' :: value' :: _ =>
    cases name
    cases name'
    cases value
    cases value'
    simp only [List.map_cons, List.cons.injEq] at faces
    obtain ⟨first, second, _⟩ := faces
    cases first
    cases second
    rfl
  | [], _ :: _ | _ :: _, [] | [_], _ :: _ :: _ | _ :: _ :: _, [_] => simp at faces

private theorem shallow_tagged {α : Type} {ask : Element → Option α} (shallow : Element.Shallow ask)
    (tag : String) : Element.Shallow fun node => if node.tag == tag then ask node else none := by
  intro e f same faces
  have tags : e.tag = f.tag := congrArg Prod.fst same
  simp only [tags, shallow e f same faces]

@[simp] theorem slider?_eq_none_iff (watcher : Element) :
    slider? watcher = none ↔ slid? watcher = none := by
  unfold slider? slid?
  split
  · exact Option.map_eq_none_iff
  · exact iff_of_true rfl rfl

theorem entries_of_unnamed {e : Element} (unnamed : (collect e).names = []) :
    (Outline.watchers e).filterMap slider? = [] ∧
      (e.descendantsNamed "block").filterMap answer? = [] := by
  have free : ∀ n, n ∉ (collect e).sources := by
    intro n known
    rw [← mem_names_iff, unnamed] at known
    cases known
  constructor
  · rw [List.filterMap_eq_nil_iff]
    intro watcher listed
    rw [slider?_eq_none_iff, Option.eq_none_iff_forall_ne_some]
    intro n shown
    exact free n ((mem_collect_iff e n).mpr (.inl ⟨watcher, listed, shown⟩))
  · rw [List.filterMap_eq_nil_iff]
    intro block listed
    rw [answer?, Option.map_eq_none_iff, Option.eq_none_iff_forall_ne_some]
    intro n set
    exact free n ((mem_collect_iff e n).mpr (.inr ⟨block, listed, set⟩))

section Without
variable {root parent removed : Element} {way : List Nat} {i : Nat}
  (found : root.at? way = some parent) (listed : parent.children[i]? = some removed)
include found listed

theorem exists_filterMap_without {α : Type} {ask : Element → Option α}
    (shallow : Element.Shallow ask) (tag : String)
    (kept : parent.tag = tag → ask (parent.without [] i) = ask parent) :
    ∃ before after, (root.descendantsNamed tag).filterMap ask =
        before ++ (removed.descendantsNamed tag).filterMap ask ++ after ∧
      ((root.without way i).descendantsNamed tag).filterMap ask = before ++ after := by
  simp only [Element.filterMap_descendantsNamed]
  apply Element.exists_answers_without (shallow_tagged shallow tag) listed _ way found
  change (if parent.tag == tag then _ else none) = _
  by_cases tagged : parent.tag = tag
  · simp only [tagged, kept tagged]
  · simp [tagged]

theorem combinations_without :
    (collect root).combinations = saturate
      ((collect (root.without way i)).combinations * (collect removed).combinations) := by
  have shallow : Element.Shallow fun e => some (factor e) := by
    intro e f same _
    exact congrArg some (factor_congr same)
  obtain ⟨before, after, whole, rest⟩ := exists_filterMap_without found listed shallow "watcher"
    fun _ => congrArg some (factor_congr rfl)
  simp only [List.filterMap_eq_map'] at whole rest
  rw [combinations_collect, combinations_collect, combinations_collect, saturate_mul, Nat.mul_comm,
    saturate_mul]
  simp only [Outline.watchers, whole, rest, List.prod_append]
  rw [Nat.mul_comm before.prod, Nat.mul_assoc]

/-- The parent may be a block that sets a variable to an answer; then the child that is
taken out must be none of the two that say so. -/
theorem sources_without (unnamed : (collect removed).names = [])
    (kept : parent.tag = "block" → answered? (parent.without [] i) = answered? parent) :
    (collect (root.without way i)).sources = (collect root).sources := by
  have shallow : Element.Shallow slider? := fun e f same _ => slider?_congr same
  have still : parent.tag = "block" → answer? (parent.without [] i) = answer? parent := by
    intro tagged
    rw [answer?, answer?, kept tagged]
  obtain ⟨_, _, sliders, fewer⟩ := exists_filterMap_without found listed shallow "watcher"
    fun _ => slider?_congr rfl
  obtain ⟨_, _, answers, less⟩ :=
    exists_filterMap_without found listed shallow_answer? "block" still
  obtain ⟨noSlider, noAnswer⟩ := entries_of_unnamed unnamed
  rw [Outline.watchers] at noSlider
  rw [noSlider, List.append_nil] at sliders
  rw [noAnswer, List.append_nil] at answers
  rw [sources_collect, sources_collect, Outline.watchers, Outline.watchers, sliders, fewer,
    answers, less]

end Without

theorem collect_of_leaf {watcher : Element} (tagged : watcher.tag = "watcher")
    (leaf : watcher.children = []) (unnamed : watched? watcher = none) :
    (collect watcher).names = [] ∧ (collect watcher).combinations = saturate (factor watcher) := by
  have itself : watcher.descendants = [watcher] := by
    rw [Element.descendants_eq, leaf]
    rfl
  have watchers : Outline.watchers watcher = [watcher] := by
    rw [Outline.watchers, Element.descendantsNamed, itself]
    simp [tagged]
  have blocks : watcher.descendantsNamed "block" = [] := by
    rw [Element.descendantsNamed, itself]
    simp [tagged]
  constructor
  · rw [List.eq_nil_iff_forall_not_mem]
    intro n known
    rw [mem_names_iff, mem_collect_iff, watchers, blocks] at known
    simp [slid?, unnamed] at known
  · rw [combinations_collect, watchers]
    simp

/-- Taking out a watcher that names no variable: the variables stay as they are, but the
number of configurations loses the settings of the watcher when it is a slider with
bounds. -/
theorem collect_without_unnamed (root parent watcher : Element) (way : List Nat) (i : Nat)
    (found : root.at? way = some parent) (listed : parent.children[i]? = some watcher)
    (tagged : watcher.tag = "watcher") (unnamed : watched? watcher = none) :
    let rest := collect (root.without way i)
    let kept := parent.tag = "block" → answered? (parent.without [] i) = answered? parent
    (collect root).combinations = saturate (rest.combinations * (collect watcher).combinations) ∧
      ((collect watcher).names = [] → kept → rest.sources = (collect root).sources) ∧
      (watcher.children = [] → (collect watcher).names = [] ∧
        (collect watcher).combinations = saturate (factor watcher)) ∧
      (watcher.children = [] → kept → factor watcher = 1 → rest = collect root) := by
  intro rest kept
  have product : (collect root).combinations = _ := combinations_without found listed
  have sources : (collect watcher).names = [] → kept → rest.sources = (collect root).sources :=
    sources_without found listed
  refine ⟨product, sources, fun leaf => collect_of_leaf tagged leaf unnamed, ?_⟩
  intro leaf still one
  obtain ⟨names, settings⟩ := collect_of_leaf tagged leaf unnamed
  have small : rest.combinations ≤ maxCount := by
    rw [show rest.combinations = _ from combinations_collect _]
    exact saturate_le _
  have combinations : rest.combinations = (collect root).combinations := by
    rw [product, settings, one, saturate_of_le (show 1 ≤ maxCount by decide), Nat.mul_one,
      saturate_of_le small]
  calc
    rest = ⟨rest.sources, rest.combinations⟩ := rfl
    _ = ⟨(collect root).sources, (collect root).combinations⟩ := by
      rw [sources names still, combinations]
    _ = collect root := rfl

theorem collect_without_unnamed_plain :
    let slider : Element := ⟨"watcher", [("style", "slider"), ("var", "mode")], "", []⟩
    let watcher : Element := ⟨"watcher", [("style", "normal"), ("var", " ")], "", []⟩
    let parent : Element := ⟨"watchers", [], "", [slider, watcher]⟩
    let root : Element := ⟨"project", [], "", [parent]⟩
    root.at? [0] = some parent ∧ parent.children[1]? = some watcher ∧
      watcher.tag = "watcher" ∧ watched? watcher = none ∧
      collect (root.without [0] 1) = collect root := by
  intro slider watcher parent root
  have unnamed : watched? watcher = none := by decide
  have plain : factor watcher = 1 := by
    have style : isSlider watcher = false := by decide
    simp [factor, style]
  have kept : parent.tag ≠ "block" := by decide
  obtain ⟨_, _, _, same⟩ :=
    collect_without_unnamed root parent watcher [0] 1 rfl rfl rfl unnamed
  exact ⟨rfl, rfl, rfl, unnamed, same rfl (fun block => absurd block kept) plain⟩

/-- A slider that names no variable, alone in a project: with it there are five
configurations of no variable at all, and without it one. -/
theorem collect_unnamed_slider :
    let slider : Element :=
      ⟨"watcher", [("style", "slider"), ("min", "1"), ("max", "5")], "", []⟩
    let root : Element := ⟨"project", [], "", [slider]⟩
    root.children[0]? = some slider ∧ slider.tag = "watcher" ∧ watched? slider = none ∧
      (collect root).combinations = 5 ∧ (collect (root.without [] 0)).combinations = 1 := by
  intro slider root
  refine ⟨rfl, rfl, by decide, ?_, ?_⟩
  · have watchers : Outline.watchers root = [slider] := by
      simp [Outline.watchers, Element.descendantsNamed, Element.descendants_eq, root, slider]
    have settings : factor slider = 5 := by
      dsimp only [slider]
      decide +kernel
    rw [combinations_collect, watchers, List.map_singleton, settings]
    decide
  · have watchers : Outline.watchers (root.without [] 0) = [] := by
      simp [Outline.watchers, Element.descendantsNamed, Element.descendants_eq, Element.without,
        root]
    rw [combinations_collect, watchers]
    decide

end Configured
end Variability
