import Variability.Proofs.Analysis.Accounting

/-! What holds of every result. The counters and the levels of a block are those of the
same changes, so they agree with each other as long as the counters hold the numbers; an
unknown event looks like the change that it stands for. -/
namespace Variability
namespace Level

@[simp] theorem toNat_max (a b : Level) : (max a b).toNat = max a.toNat b.toNat := by
  cases a <;> cases b <;> rfl

theorem toNat_inj {a b : Level} (same : a.toNat = b.toNat) : a = b := by
  cases a <;> cases b <;> simp_all [toNat]

private theorem max_cases (a b : Level) : max a b = a ∨ max a b = b := by
  cases a <;> cases b <;> decide

private theorem le_foldl_max (levels : List Level) (start : Level) :
    start ≤ levels.foldl max start ∧ ∀ l ∈ levels, l ≤ levels.foldl max start := by
  induction levels generalizing start with
  | nil => exact ⟨Nat.le_refl _, nofun⟩
  | cons first rest ih =>
    obtain ⟨above, others⟩ := ih (max start first)
    change (max start first).toNat ≤ (rest.foldl max (max start first)).toNat at above
    rw [toNat_max] at above
    refine ⟨?_, fun l listed => ?_⟩
    · change start.toNat ≤ (rest.foldl max (max start first)).toNat
      omega
    · rcases List.mem_cons.mp listed with rfl | later
      · change l.toNat ≤ (rest.foldl max (max start l)).toNat
        omega
      · exact others l later

private theorem foldl_max_mem (levels : List Level) (start : Level) :
    levels.foldl max start ∈ start :: levels := by
  induction levels generalizing start with
  | nil => exact List.mem_cons_self
  | cons first rest ih =>
    rw [List.foldl_cons]
    rcases List.mem_cons.mp (ih (max start first)) with same | later
    · rw [same]
      rcases max_cases start first with left | right
      · rw [left]
        exact List.mem_cons_self
      · rw [right]
        exact List.mem_cons_of_mem _ List.mem_cons_self
    · exact List.mem_cons_of_mem _ (List.mem_cons_of_mem _ later)

theorem le_highest {levels : List Level} {l : Level} (listed : l ∈ levels) : l ≤ highest levels :=
  (le_foldl_max levels .untouched).2 l listed

@[simp] theorem highest_le_iff (levels : List Level) (bound : Level) :
    highest levels ≤ bound ↔ ∀ l ∈ levels, l ≤ bound := by
  constructor
  · intro below l listed
    exact Nat.le_trans (le_highest listed) below
  · intro each
    rcases List.mem_cons.mp (foldl_max_mem levels .untouched) with lowest | listed
    · rw [highest, lowest]
      exact Nat.zero_le _
    · exact each _ listed

theorem highest_mem {levels : List Level} (nonempty : levels ≠ []) : highest levels ∈ levels := by
  rcases List.mem_cons.mp (foldl_max_mem levels .untouched) with lowest | listed
  · -- when nothing is above the lowest level, every level is the lowest one
    obtain ⟨first, rest, rfl⟩ := List.exists_cons_of_ne_nil nonempty
    have below : first ≤ highest (first :: rest) := le_highest List.mem_cons_self
    rw [highest, lowest] at below ⊢
    rw [show Level.untouched = first from toNat_inj (Nat.le_zero.mp below).symm]
    exact List.mem_cons_self
  · exact listed

theorem highest_eq {levels : List Level} {l : Level} (listed : l ∈ levels)
    (bound : ∀ k ∈ levels, k ≤ l) : highest levels = l :=
  toNat_inj (Nat.le_antisymm ((highest_le_iff levels l).mpr bound) (le_highest listed))

theorem highest_mono {few many : List Level} (fewer : few ⊆ many) :
    highest few ≤ highest many :=
  (highest_le_iff few _).mpr fun _ listed => le_highest (fewer listed)

theorem le_pipeline (l : Level) : l ≤ .pipeline := by
  cases l <;> decide

end Level

section Values
variable {α β : Type}

theorem values_eq_map_toList {cmp : α → α → Ordering} (map : Std.TreeMap α β cmp) :
    map.values = map.toList.map Prod.snd := by
  have folded : map.values = map.foldr (fun _ value rest => value :: rest) [] := rfl
  rw [folded, Std.TreeMap.foldr_eq_foldr_toList, ← List.map_eq_foldr]

@[simp] theorem mem_values_iff [Ord α] [Std.TransOrd α] [Std.LawfulEqOrd α] (map : Std.TreeMap α β)
    (value : β) : value ∈ map.values ↔ ∃ key : α, map[key]? = some value := by
  simp [values_eq_map_toList, Std.TreeMap.mem_toList_iff_getElem?_eq_some]

end Values

namespace Mutation

theorem level_of_definition {m : Mutation} (kind : m.isDefinition = true) :
    m.level = if m.isPipeline then .pipeline else .definition := by
  simp [level, kind]

theorem level_of_structural {m : Mutation} (kind : m.isDefinition = false) :
    m.level = .structural := by
  simp [level, kind]

theorem not_isFeatureGuarded {m : Mutation} (kind : m.isDefinition = false) :
    m.isFeatureGuarded = false := by
  obtain ⟨resolution, change⟩ := m
  cases change with
  | structural attr => rfl
  | definition evidence guarded => contradiction

theorem isDefinition_of_isFeatureGuarded {m : Mutation} (guarded : m.isFeatureGuarded = true) :
    m.isDefinition = true := by
  cases kind : m.isDefinition with
  | true => rfl
  | false => rw [not_isFeatureGuarded kind] at guarded; contradiction

theorem isDefinition_of_isPipeline {m : Mutation} (pipeline : m.isPipeline = true) :
    m.isDefinition = true := by
  obtain ⟨resolution, change⟩ := m
  cases change with
  | structural attr => contradiction
  | definition evidence guarded => rfl

private theorem isDefinition_ofSetAttribute (scope : Scope) (attr : String)
    (target value : Element) :
    (ofSetAttribute scope attr target value).isDefinition = true ↔
      (ofSetAttribute scope attr target value).attr = "definition" := by
  by_cases kind : attr = "definition" <;> simp [ofSetAttribute, isDefinition, Mutation.attr, kind]

end Mutation

/-- A change of a script is told apart by the attribute that its statement names. -/
theorem Script.isDefinition_iff {isFeature : String → Bool} {script : Script} {m : Mutation}
    (made : m ∈ script.mutations isFeature) : m.isDefinition = true ↔ m.attr = "definition" := by
  rw [Script.mutations_eq] at made
  obtain ⟨place, _, change⟩ := List.mem_filterMap.mp made
  unfold Place.change? at change
  split at change
  · rw [← Option.some.inj change]
    exact Mutation.isDefinition_ofSetAttribute ..
  · contradiction

namespace BlockStats

section Levels
variable {changes : List Mutation} {s : BlockStats} (h : s.Tallies changes)
include h

theorem Tallies.definitionLevel_eq :
    s.definitionLevel =
      if changes.any Mutation.isPipeline then .pipeline
      else if changes.any Mutation.isDefinition then .definition else .untouched := by
  rw [h.definitionLevel]
  by_cases pipelines : changes.any Mutation.isPipeline = true
  · obtain ⟨m, made, pipeline⟩ := List.any_eq_true.mp pipelines
    have definition := Mutation.isDefinition_of_isPipeline pipeline
    rw [if_pos pipelines]
    refine Level.highest_eq (List.mem_map.mpr ⟨m, List.mem_filter.mpr ⟨made, definition⟩, ?_⟩)
      fun k _ => k.le_pipeline
    rw [Mutation.level_of_definition definition, if_pos pipeline]
  rw [if_neg pipelines]
  have plain : ∀ m ∈ changes.filter Mutation.isDefinition, m.level = .definition := by
    intro m kept
    obtain ⟨made, definition⟩ := List.mem_filter.mp kept
    rw [Mutation.level_of_definition definition, if_neg]
    exact fun pipeline => pipelines (List.any_eq_true.mpr ⟨m, made, pipeline⟩)
  by_cases definitions : changes.any Mutation.isDefinition = true
  · obtain ⟨m, made, definition⟩ := List.any_eq_true.mp definitions
    have kept := List.mem_filter.mpr ⟨made, definition⟩
    rw [if_pos definitions]
    refine Level.highest_eq (List.mem_map.mpr ⟨m, kept, plain m kept⟩) fun k listed => ?_
    obtain ⟨n, own, rfl⟩ := List.mem_map.mp listed
    rw [plain n own]
    exact Nat.le_refl _
  · have none_kept : changes.filter Mutation.isDefinition = [] :=
      List.filter_eq_nil_iff.mpr fun m made definition =>
        definitions (List.any_eq_true.mpr ⟨m, made, definition⟩)
    rw [if_neg definitions, none_kept]
    rfl

theorem Tallies.level_eq :
    s.level = max s.definitionLevel
      (if changes.any (!·.isDefinition) then .structural else .untouched) := by
  apply Level.toNat_inj
  rw [Level.toNat_max]
  apply Nat.le_antisymm
  · -- every change is below one of the two
    rw [h.level, h.definitionLevel, ← Level.toNat_max]
    refine (Level.highest_le_iff _ _).mpr fun l listed => ?_
    change l.toNat ≤ _
    rw [Level.toNat_max]
    obtain ⟨m, made, rfl⟩ := List.mem_map.mp listed
    cases kind : m.isDefinition with
    | true =>
      have kept := List.mem_filter.mpr ⟨made, kind⟩
      exact Nat.le_trans (Level.le_highest (List.mem_map_of_mem kept)) (Nat.le_max_left _ _)
    | false =>
      rw [if_pos (List.any_eq_true.mpr ⟨m, made, by rw [kind]; rfl⟩),
        Mutation.level_of_structural kind]
      exact Nat.le_max_right _ _
  · apply Nat.max_le.mpr
    constructor
    · rw [h.level, h.definitionLevel]
      exact Level.highest_mono (List.filter_sublist.map _).subset
    · split
      · rename_i structural
        obtain ⟨m, made, other⟩ := List.any_eq_true.mp structural
        have kind : m.isDefinition = false := by simpa using other
        rw [← Mutation.level_of_structural kind, h.level]
        exact Level.le_highest (List.mem_map_of_mem made)
      · exact Nat.zero_le _

end Levels

/-- The counters bound each other, and the levels follow from the counters. -/
structure Consistent (s : BlockStats) : Prop where
  guarded : s.guardedDefinitionChanges ≤ s.definitionChanges
  pipeline : s.pipelineDefinitionChanges ≤ s.definitionChanges
  definitionLevel : s.definitionLevel =
    if 0 < s.pipelineDefinitionChanges then .pipeline
    else if 0 < s.definitionChanges then .definition else .untouched
  level : s.level =
    max s.definitionLevel (if 0 < s.structuralChanges then .structural else .untouched)

private theorem pos_iff_any {counter : UInt32} {p : Mutation → Bool} {changes : List Mutation}
    (counts : counter.toNat = changes.countP p) : 0 < counter ↔ changes.any p = true := by
  rw [UInt32.lt_iff_toNat_lt, counts, List.any_eq_true]
  exact List.countP_pos_iff

theorem Tallies.consistent {changes : List Mutation} {s : BlockStats} (h : s.Tallies changes)
    (fits : changes.length < UInt32.size) : s.Consistent := by
  have counts := h.counts fits
  exact {
    guarded := by
      rw [UInt32.le_iff_toNat_le, counts.guardedDefinitionChanges, counts.definitionChanges]
      exact List.countP_mono_left fun _ _ => Mutation.isDefinition_of_isFeatureGuarded
    pipeline := by
      rw [UInt32.le_iff_toNat_le, counts.pipelineDefinitionChanges, counts.definitionChanges]
      exact List.countP_mono_left fun _ _ => Mutation.isDefinition_of_isPipeline
    definitionLevel := by
      simp only [h.definitionLevel_eq, pos_iff_any counts.pipelineDefinitionChanges,
        pos_iff_any counts.definitionChanges]
    level := by
      simp only [h.level_eq, pos_iff_any counts.structuralChanges] }

section Levels
variable {s : BlockStats} (h : s.Consistent)
include h

theorem Consistent.definitionLevel_eq_untouched_iff :
    s.definitionLevel = .untouched ↔ s.definitionChanges = 0 := by
  have := h.pipeline
  rw [h.definitionLevel]
  split
  · simp only [reduceCtorEq, false_iff]
    grind
  · split <;> simp only [reduceCtorEq, true_iff, false_iff] <;> grind

theorem Consistent.definitionLevel_eq_pipeline_iff :
    s.definitionLevel = .pipeline ↔ 0 < s.pipelineDefinitionChanges := by
  rw [h.definitionLevel]
  split
  · simpa
  · split <;> simp only [reduceCtorEq, false_iff] <;> assumption

theorem Consistent.definitionLevel_eq_definition (definitions : s.definitionChanges ≠ 0)
    (unsplit : s.pipelineDefinitionChanges = 0) : s.definitionLevel = .definition := by
  rw [h.definitionLevel, if_neg (by grind), if_pos (by grind)]

end Levels
end BlockStats

theorem Event.changesOf_ne_nil_of_found {events : List Event} {key : BlockKey} {stats : BlockStats}
    (found : (events.foldl count {})[key]? = some stats) : changesOf key events ≠ [] := by
  intro unchanged
  rw [getElem?_blocks, if_pos unchanged] at found
  contradiction

theorem Project.isDefinition_iff {settings : Settings} {p : Project} {e : Event}
    (made : e ∈ p.events settings) :
    e.mutation.isDefinition = true ↔ e.mutation.attr = "definition" := by
  obtain ⟨v, _, own⟩ := List.mem_flatMap.mp made
  obtain ⟨m, change, rfl⟩ := List.mem_map.mp own
  exact Script.isDefinition_iff change

theorem Event.mem_listed {settings : Settings} {events : List Event} {unknown : UnknownEvent}
    (found : unknown ∈ listed settings events) : ∃ e ∈ events, e.toUnknown = unknown := by
  unfold listed at found
  split at found
  · obtain ⟨e, kept, same⟩ := List.mem_map.mp found
    exact ⟨e, (List.mem_filter.mp kept).1, same⟩
  · contradiction

/-- In every result the counters and levels of each block with fewer than `2 ^ 32` changes
agree, unknown events are graded like the changes that they stand for, and the level of the
project is the highest level of any block or unknown event. -/
theorem analyzeProject_invariants (settings : Settings) (p : Project) :
    let result := analyzeProject settings p
    let levels := result.blocks.values.map BlockStats.level ++
      result.unknownEvents.map UnknownEvent.level
    (∀ (key : BlockKey) (stats : BlockStats), result.blocks[key]? = some stats →
      (Event.changesOf key (p.events settings)).length < UInt32.size →
      1 ≤ stats.structuralChanges.toNat + stats.definitionChanges.toNat ∧
        stats.guardedDefinitionChanges ≤ stats.definitionChanges ∧
        stats.pipelineDefinitionChanges ≤ stats.definitionChanges ∧
        (stats.definitionLevel = .untouched ↔ stats.definitionChanges = 0) ∧
        (stats.definitionLevel = .pipeline ↔ 0 < stats.pipelineDefinitionChanges) ∧
        (stats.definitionChanges ≠ 0 → stats.pipelineDefinitionChanges = 0 →
          stats.definitionLevel = .definition) ∧
        stats.level = max stats.definitionLevel
          (if 0 < stats.structuralChanges then .structural else .untouched)) ∧
      (∀ e ∈ result.unknownEvents,
        (e.isDefinition = true ↔ e.attr = "definition") ∧
          (e.isDefinition = false → e.level = .structural ∧ e.featureGuarded = false) ∧
          (e.isDefinition = true → e.level = .definition ∨ e.level = .pipeline)) ∧
      (∀ l ∈ levels, l ≤ result.projectLevel) ∧
      (levels ≠ [] → result.projectLevel ∈ levels) ∧
      (levels = [] → result.projectLevel = .untouched) := by
  intro result levels
  have project : result.projectLevel = Level.highest levels := rfl
  refine ⟨?_, ?_, ?_, ?_, ?_⟩
  · intro key stats found fits
    rw [show result.blocks = _ from analyzeProject_blocks settings p] at found
    have tallies := Event.tallies_of_found found
    have consistent := tallies.consistent fits
    have changed := List.length_pos_of_ne_nil (Event.changesOf_ne_nil_of_found found)
    rw [← (tallies.counts fits).total] at changed
    exact ⟨changed, consistent.guarded, consistent.pipeline,
      consistent.definitionLevel_eq_untouched_iff, consistent.definitionLevel_eq_pipeline_iff,
      consistent.definitionLevel_eq_definition, consistent.level⟩
  · intro unknown listed
    rw [show result.unknownEvents = _ from analyzeProject_unknownEvents settings p] at listed
    obtain ⟨e, made, rfl⟩ := Event.mem_listed listed
    refine ⟨Project.isDefinition_iff made, fun kind => ?_, fun kind => ?_⟩
    · exact ⟨Mutation.level_of_structural kind, Mutation.not_isFeatureGuarded kind⟩
    · have level : e.toUnknown.level = _ := Mutation.level_of_definition kind
      rw [level]
      cases e.mutation.isPipeline
      · exact Or.inl rfl
      · exact Or.inr rfl
  · intro l listed
    rw [project]
    exact Level.le_highest listed
  · intro nonempty
    rw [project]
    exact Level.highest_mem nonempty
  · intro empty
    rw [project, empty]
    rfl

theorem analyzeProject_invariants_one_change :
    let script : Element :=
      ⟨"script", [], "",
        [⟨"block", [("s", "doSetBlockAttribute")], "",
          [⟨"l", [], "", [⟨"option", [], "category", []⟩]⟩,
            ⟨"custom-block", [("s", "walk")], "", []⟩, ⟨"l", [], "motion", []⟩]⟩]⟩
    let stage : Element := ⟨"stage", [], "", [⟨"scripts", [], "", [script]⟩]⟩
    let p : Project := ⟨⟨"project", [], "", [stage]⟩, 0⟩
    let key : BlockKey := ⟨"Stage", "walk"⟩
    (Event.changesOf key (p.events {})).length < UInt32.size ∧
      ∃ stats, (analyzeProject {} p).blocks[key]? = some stats ∧
        1 ≤ stats.structuralChanges.toNat + stats.definitionChanges.toNat ∧
        (stats.definitionLevel = .untouched ↔ stats.definitionChanges = 0) := by
  intro script stage p key
  let change : Mutation := ⟨.resolved "walk" .directReference, .structural "category"⟩
  have visits : Visit.ofRoot {} p.root = [⟨"Stage", script⟩] := by cbv
  have made : (Script.ofElement script).mutations (Configured.collect p.root).contains =
      [change] := by
    decide +kernel
  have changes : Event.changesOf key (p.events {}) = [change] := by
    rw [Project.events, visits, List.flatMap_singleton, Visit.events, made]
    decide
  have fits : (Event.changesOf key (p.events {})).length < UInt32.size := by
    rw [changes]
    decide
  have found := Event.getElem?_blocks (p.events {}) key
  rw [changes, if_neg (List.cons_ne_nil _ _), ← analyzeProject_blocks] at found
  obtain ⟨changed, _, _, untouched, _⟩ := (analyzeProject_invariants {} p).1 key _ found fits
  exact ⟨fits, _, found, changed, untouched⟩

end Variability
