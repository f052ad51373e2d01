import Mathlib.Algebra.BigOperators.Group.Finset.Basic
import Mathlib.Algebra.GroupWithZero.Nat
import Variability.Proofs.Analysis.Features
import Variability.Proofs.Analysis.Invariant

/-! The summaries of the features against the metrics. A script that reads a feature is
one pair, which counts once for the script and once for the feature; the summaries count
the pairs by feature, and tangling counts them by script. -/
namespace Variability

private theorem sum_map_count {α : Type} [DecidableEq α] {names list : List α}
    (distinct : names.Nodup)
    (known : ∀ a ∈ list, a ∈ names) : (names.map list.count).sum = list.length := by
  rw [← List.sum_toFinset list.count distinct, ← Multiset.coe_card,
    ← Multiset.sum_count_eq_card (s := names.toFinset)]
  · simp only [Multiset.coe_count]
  · simpa using known

@[simp] theorem foldl_max_le_iff (values : List Nat) (start bound : Nat) :
    values.foldl max start ≤ bound ↔ start ≤ bound ∧ ∀ value ∈ values, value ≤ bound := by
  induction values generalizing start with
  | nil => simp
  | cons first rest ih =>
    rw [List.foldl_cons, ih, Nat.max_le, List.forall_mem_cons, and_assoc]

namespace Usage

@[simp] theorem length_pairs (u : Usage) : u.pairs.length = u.tangling.values.sum := by
  rw [values_eq_map_toList, tangling, Std.TreeMap.toList_map, List.map_map, pairs,
    List.length_flatMap]
  congr 1
  apply List.map_congr_left
  intro entry _
  rw [List.length_map, Std.TreeSet.length_toList]
  rfl

/-- Counting the pairs by feature or by script comes to the same. -/
theorem sum_scattering (u : Usage) {names : List String} (distinct : names.Nodup)
    (known : ∀ id name, u.Uses id name → name ∈ names) :
    (names.map fun name => (u.scattering[name]?.getD {}).size).sum = u.tangling.values.sum := by
  simp only [size_getD_scattering]
  rw [← length_pairs, ← List.length_map Prod.snd]
  apply sum_map_count distinct
  intro name listed
  obtain ⟨⟨id, _⟩, paired, rfl⟩ := List.mem_map.mp listed
  exact known id _ ((mem_pairs_iff u id _).mp paired)

@[simp] theorem size_getD_scattering_eq_zero_iff (u : Usage) (name : String) :
    (u.scattering[name]?.getD {}).size = 0 ↔ name ∉ u.scattering := by
  rw [size_getD_scattering, List.count_eq_zero, mem_scattering_iff]
  simp

theorem tangling_bounds {u : Usage} (tight : u.Tight) {names : List String}
    (known : ∀ id name, u.Uses id name → name ∈ names) {count : Nat}
    (listed : count ∈ u.tangling.values) : 1 ≤ count ∧ count ≤ names.length := by
  rw [mem_values_iff] at listed
  obtain ⟨id, found⟩ := listed
  rw [tangling, Std.TreeMap.getElem?_map, Option.map_eq_some_iff] at found
  obtain ⟨features, held, rfl⟩ := found
  rw [← Std.TreeSet.length_toList]
  constructor
  · obtain ⟨feature, read⟩ := tight id features held
    exact List.length_pos_of_mem (Std.TreeSet.mem_toList.mpr read)
  · apply List.Subperm.length_le
    apply List.subperm_of_subset (nodup_toList features)
    intro feature read
    exact known id feature ⟨features, held, Std.TreeSet.mem_toList.mp read⟩

end Usage

namespace Analysis
variable (a : Analysis)

@[simp] theorem map_featureSummaries :
    a.featureSummaries.map (fun s => (s.name, s.source)) = a.configured := by
  rw [featureSummaries, List.map_map]
  exact List.map_id a.configured

private theorem scripts_of_mem {s : FeatureSummary} (listed : s ∈ a.featureSummaries) :
    s.scripts = (a.scattering[s.name]?.getD {}).size := by
  obtain ⟨⟨name, source⟩, _, rfl⟩ := List.mem_map.mp listed
  exact Option.getD_map Std.TreeSet.size {} a.scattering[name]?

theorem isDead_iff_of_mem {s : FeatureSummary} (listed : s ∈ a.featureSummaries) :
    s.isDead = true ↔ s.name ∈ a.deadFeatures := by
  obtain ⟨entry, _, rfl⟩ := List.mem_map.mp listed
  exact Std.TreeSet.contains_iff_mem

@[simp] theorem maxTangling_le_iff (bound : Nat) :
    a.maxTangling ≤ bound ↔ ∀ count ∈ a.tangling.values, count ≤ bound := by
  rw [maxTangling, foldl_max_le_iff]
  simp

end Analysis

section Result
variable (settings : Settings) (p : Project)

theorem Project.mem_names_of_uses (id : ScriptId) (name : String)
    (uses : (p.usage settings).Uses id name) : name ∈ (Configured.collect p.root).names :=
  ((p.uses_usage_iff settings id name).mp uses).1

@[simp] theorem map_name_featureSummaries :
    (analyzeProject settings p).featureSummaries.map FeatureSummary.name =
      (Configured.collect p.root).names := by
  have configured : (analyzeProject settings p).configured =
      (Configured.collect p.root).sources.toList := by
    rw [analyzeProject_eq]
    rfl
  have names := congrArg (List.map Prod.fst) (analyzeProject settings p).map_featureSummaries
  rw [configured, Std.TreeMap.map_fst_toList_eq_keys, List.map_map] at names
  exact names

private theorem name_mem_names {s : FeatureSummary}
    (listed : s ∈ (analyzeProject settings p).featureSummaries) :
    s.name ∈ (Configured.collect p.root).names := by
  rw [← map_name_featureSummaries settings p]
  exact List.mem_map_of_mem listed

theorem isDead_iff_scripts {s : FeatureSummary}
    (listed : s ∈ (analyzeProject settings p).featureSummaries) :
    s.isDead = true ↔ s.scripts = 0 := by
  rw [Analysis.isDead_iff_of_mem _ listed, Analysis.scripts_of_mem _ listed,
    mem_analyzeProject_deadFeatures_iff, analyzeProject_scattering,
    Usage.size_getD_scattering_eq_zero_iff]
  exact and_iff_right (name_mem_names settings p listed)

theorem sum_scripts_featureSummaries :
    ((analyzeProject settings p).featureSummaries.map FeatureSummary.scripts).sum =
      (analyzeProject settings p).tangling.values.sum := by
  have looked : (analyzeProject settings p).featureSummaries.map FeatureSummary.scripts =
      (Configured.collect p.root).names.map fun name =>
        ((p.usage settings).scattering[name]?.getD {}).size := by
    rw [← map_name_featureSummaries settings p, List.map_map, ← analyzeProject_scattering]
    apply List.map_congr_left
    intro s listed
    exact Analysis.scripts_of_mem _ listed
  rw [looked, analyzeProject_tangling]
  exact Usage.sum_scattering _ (Configured.collect p.root).nodup_names
    (p.mem_names_of_uses settings)

end Result

/-- The summaries of the features agree with tangling, scattering and the dead features: there
is one for each configured variable, by name, and together they count what tangling counts. -/
theorem analyzeProject_summaries (settings : Settings) (p : Project) :
    let result := analyzeProject settings p
    let configured := Configured.collect p.root
    let summaries := result.featureSummaries
    summaries.map FeatureSummary.name = configured.names ∧
      summaries.Pairwise (·.name < ·.name) ∧
      (∀ s ∈ summaries, s.isDead = true ↔ s.scripts = 0) ∧
      (summaries.map FeatureSummary.scripts).sum = result.tangling.values.sum ∧
      result.maxTangling ≤ configured.names.length ∧
      (∀ count ∈ result.tangling.values, 1 ≤ count) ∧
      (result.maxTangling = 0 ↔ ∀ n ∈ configured.names, n ∈ result.deadFeatures) := by
  intro result configured summaries
  have names : summaries.map FeatureSummary.name = configured.names :=
    map_name_featureSummaries settings p
  have dead : ∀ s ∈ summaries, s.isDead = true ↔ s.scripts = 0 :=
    fun _ => isDead_iff_scripts settings p
  have sums := sum_scripts_featureSummaries settings p
  have bounds : ∀ count ∈ result.tangling.values, 1 ≤ count ∧ count ≤ configured.names.length := by
    intro count listed
    rw [analyzeProject_tangling] at listed
    exact Usage.tangling_bounds (p.tight_usage settings) (p.mem_names_of_uses settings) listed
  refine ⟨names, ?_, dead, sums, ?_, fun count listed => (bounds count listed).1, ?_⟩
  · rw [← List.pairwise_map (f := FeatureSummary.name), names]
    exact configured.pairwise_names
  · rw [Analysis.maxTangling_le_iff]
    exact fun count listed => (bounds count listed).2
  · -- no script reads a feature exactly when there is nothing to add up on either side
    calc result.maxTangling = 0
      _ ↔ result.tangling.values.sum = 0 := by
          rw [← Nat.le_zero, Analysis.maxTangling_le_iff, List.sum_eq_zero_iff_forall_eq_nat]
          simp only [Nat.le_zero]
      _ ↔ ∀ s ∈ summaries, s.scripts = 0 := by
          rw [← sums, List.sum_eq_zero_iff_forall_eq_nat, List.forall_mem_map]
      _ ↔ ∀ n ∈ configured.names, n ∈ result.deadFeatures := by
          rw [← names, List.forall_mem_map]
          apply forall₂_congr
          intro s listed
          rw [← dead s listed, Analysis.isDead_iff_of_mem _ listed]

end Variability
