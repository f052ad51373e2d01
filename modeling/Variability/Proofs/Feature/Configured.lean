import Variability.Feature.Configured
import Variability.Proofs.Element.Descendants

/-! Which variables are configured. A variable is configured by a slider that shows
it or by a block that sets it to an answer, and no variable has the empty name. -/
namespace Variability
namespace Configured

theorem pairwise_names (c : Configured) : c.names.Pairwise (· < ·) := by
  have ordered := Std.TreeMap.ordered_keys (t := c.sources)
  exact ordered.imp fun first => compareOfLessAndEq_eq_lt.mp first

theorem nodup_names (c : Configured) : c.names.Nodup :=
  Std.TreeMap.distinct_keys.imp fun different same =>
    different (Std.LawfulEqCmp.compare_eq_iff_eq.mpr same)

@[simp] theorem mem_add_iff (c : Configured) (name : String) (source : FeatureSource) (n : String) :
    n ∈ (c.add name source).sources ↔ n ∈ c.sources ∨ name = n := by
  rw [add, Std.TreeMap.mem_insertIfNew, Std.LawfulEqCmp.compare_eq_iff_eq, or_comm]

def slid? (watcher : Element) : Option String :=
  if isSlider watcher then watched? watcher else none

@[simp] theorem mem_addWatcher_iff (c : Configured) (watcher : Element) (n : String) :
    n ∈ (c.addWatcher watcher).sources ↔ n ∈ c.sources ∨ slid? watcher = some n := by
  unfold addWatcher slid?
  cases isSlider watcher with
  | false => simp
  | true =>
    cases watched? watcher with
    | none => simp
    | some name => simp

@[simp] theorem mem_addAnswer_iff (c : Configured) (block : Element) (n : String) :
    n ∈ (c.addAnswer block).sources ↔ n ∈ c.sources ∨ answered? block = some n := by
  unfold addAnswer
  cases answered? block with
  | none => simp
  | some name => simp

private theorem mem_foldl_iff {step : Configured → Element → Configured}
    {named? : Element → Option String}
    (adds : ∀ c e n, n ∈ (step c e).sources ↔ n ∈ c.sources ∨ named? e = some n)
    (elements : List Element) (c : Configured) (n : String) :
    n ∈ (elements.foldl step c).sources ↔
      n ∈ c.sources ∨ ∃ e ∈ elements, named? e = some n := by
  induction elements generalizing c with
  | nil => simp
  | cons e rest ih =>
    rw [List.foldl_cons, ih, adds]
    simp only [List.mem_cons, exists_eq_or_imp, or_assoc]

theorem mem_collect_iff (root : Element) (n : String) :
    n ∈ (collect root).sources ↔
      (∃ watcher ∈ Outline.watchers root, slid? watcher = some n) ∨
        ∃ block ∈ root.descendantsNamed "block", answered? block = some n := by
  rw [collect, mem_foldl_iff mem_addAnswer_iff, mem_foldl_iff mem_addWatcher_iff]
  simp

private theorem slid?_ne_empty {watcher : Element} {n : String} (shown : slid? watcher = some n) :
    n ≠ "" := by
  unfold slid? at shown
  split at shown
  · rw [watched?, Option.filter_eq_some_iff] at shown
    exact bne_iff_ne.mp shown.2
  · cases shown

private theorem answered?_ne_empty {block : Element} {n : String} (set : answered? block = some n) :
    n ≠ "" := by
  unfold answered? at set
  split at set
  · split at set
    · rename_i chosen
      rw [← Option.some.inj set]
      simp only [Bool.and_eq_true, bne_iff_ne] at chosen
      exact chosen.2
    · cases set
  · cases set

@[simp] theorem mem_names_iff (c : Configured) (n : String) : n ∈ c.names ↔ n ∈ c.sources :=
  Std.TreeMap.mem_keys

theorem ne_empty_of_mem_names {root : Element} {n : String} (known : n ∈ (collect root).names) :
    n ≠ "" := by
  rw [mem_names_iff, mem_collect_iff] at known
  rcases known with ⟨watcher, _, shown⟩ | ⟨block, _, set⟩
  · exact slid?_ne_empty shown
  · exact answered?_ne_empty set

@[simp] theorem mem_readBy_iff (root tree : Element) (n : String) :
    n ∈ (collect root).readBy tree ↔ n ∈ (collect root).names ∧ tree.Reads n := by
  rw [readBy, List.mem_filter, mem_variableReads_iff, contains, Std.TreeMap.contains_iff_mem,
    ← mem_names_iff]
  constructor
  · rintro ⟨⟨read, _⟩, known⟩
    exact ⟨known, read⟩
  · rintro ⟨known, read⟩
    exact ⟨⟨read, ne_empty_of_mem_names known⟩, known⟩

end Configured
end Variability
