import Mathlib.Algebra.BigOperators.Group.List.Lemmas
import Mathlib.Algebra.GroupWithZero.Nat
import Variability.Proofs.Analysis.Event
import Variability.Proofs.Script.Place

/-! Exact accounting of changes. Every event of a project is counted once: for its
block, or as an unknown event. -/
namespace Variability
namespace Event

def changesOf (key : BlockKey) (events : List Event) : List Mutation :=
  (events.filter fun e => e.key? == some key).map mutation

private theorem getElem?_count (blocks : Blocks) (e : Event) (key : BlockKey) :
    (count blocks e)[key]? =
      if e.key? = some key then some ((blocks[key]?.getD {}).record e.mutation)
      else blocks[key]? := by
  unfold count
  cases known : e.key? with
  | none => simp
  | some other =>
    simp only [Std.TreeMap.getElem?_alter, Std.LawfulEqCmp.compare_eq_iff_eq, Option.some.injEq]
    by_cases same : other = key
    · rw [if_pos same, if_pos same, same]
    · rw [if_neg same, if_neg same]

theorem getElem?_foldl_count (events : List Event) (blocks : Blocks) (key : BlockKey) :
    (events.foldl count blocks)[key]? =
      (changesOf key events).foldl (fun stats m => some ((stats.getD {}).record m))
        blocks[key]? := by
  induction events generalizing blocks with
  | nil => rfl
  | cons e rest ih =>
    rw [List.foldl_cons, ih, getElem?_count]
    by_cases known : e.key? = some key
    · simp [changesOf, known]
    · simp [changesOf, known]

/-- What a survey that starts empty holds about a block: the record of its own
changes, and nothing when there is none. -/
theorem getElem?_blocks (events : List Event) (key : BlockKey) :
    (events.foldl count {})[key]? =
      if changesOf key events = [] then none
      else some ((changesOf key events).foldl BlockStats.record {}) := by
  have folded : ∀ (mutations : List Mutation) (stats : BlockStats),
      mutations.foldl (fun stats m => some ((stats.getD {}).record m)) (some stats) =
        some (mutations.foldl BlockStats.record stats) := by
    intro mutations
    induction mutations with
    | nil => intro stats; rfl
    | cons m rest ih => intro stats; exact ih (stats.record m)
  rw [getElem?_foldl_count, Std.TreeMap.getElem?_emptyc]
  cases changesOf key events with
  | nil => rfl
  | cons m rest => exact folded rest _

theorem getD_blocks (events : List Event) (key : BlockKey) :
    (events.foldl count {})[key]?.getD {} =
      (changesOf key events).foldl BlockStats.record {} := by
  rw [getElem?_blocks]
  split
  · rename_i unchanged
    rw [unchanged]
    rfl
  · rfl

private theorem changesOf_ne_nil_iff (key : BlockKey) (events : List Event) :
    changesOf key events ≠ [] ↔ ∃ e ∈ events, e.key? = some key := by
  simp [changesOf]

@[simp] theorem mem_blocks_iff (events : List Event) (key : BlockKey) :
    key ∈ events.foldl count {} ↔ ∃ e ∈ events, e.key? = some key := by
  rw [← changesOf_ne_nil_iff, Std.TreeMap.mem_iff_isSome_getElem?, getElem?_blocks]
  by_cases unchanged : changesOf key events = [] <;> simp [unchanged]

end Event

@[simp] theorem Level.highest_concat (levels : List Level) (l : Level) :
    highest (levels ++ [l]) = max (highest levels) l :=
  List.foldl_concat ..

namespace BlockStats

section Record
variable (s : BlockStats) (m : Mutation)

@[simp] theorem level_record : (s.record m).level = max s.level m.level := by
  cases kind : m.isDefinition <;>
    simp [record, kind, recordStructural, recordDefinition, Mutation.level]

@[simp] theorem structuralChanges_record :
    (s.record m).structuralChanges = s.structuralChanges + (!m.isDefinition).toUInt32 := by
  obtain ⟨resolution, _ | _⟩ := m
  · rfl
  · exact (UInt32.add_zero _).symm

@[simp] theorem definitionChanges_record :
    (s.record m).definitionChanges = s.definitionChanges + m.isDefinition.toUInt32 := by
  obtain ⟨resolution, _ | _⟩ := m
  · exact (UInt32.add_zero _).symm
  · rfl

@[simp] theorem definitionLevel_record :
    (s.record m).definitionLevel =
      if m.isDefinition then max s.definitionLevel m.level else s.definitionLevel := by
  cases kind : m.isDefinition <;> simp [record, kind, recordStructural, recordDefinition]

@[simp] theorem guardedDefinitionChanges_record :
    (s.record m).guardedDefinitionChanges =
      s.guardedDefinitionChanges + m.isFeatureGuarded.toUInt32 := by
  obtain ⟨resolution, _ | _⟩ := m
  · exact (UInt32.add_zero _).symm
  · rfl

@[simp] theorem pipelineDefinitionChanges_record :
    (s.record m).pipelineDefinitionChanges =
      s.pipelineDefinitionChanges + m.isPipeline.toUInt32 := by
  obtain ⟨resolution, _ | _⟩ := m
  · exact (UInt32.add_zero _).symm
  · rfl

end Record

/-- The record of some changes: the highest of their levels, and their numbers in the
counters, as far as 32 bits tell them. -/
structure Tallies (changes : List Mutation) (s : BlockStats) : Prop where
  level : s.level = Level.highest (changes.map Mutation.level)
  structuralChanges : s.structuralChanges = UInt32.ofNat (changes.countP (!·.isDefinition))
  definitionChanges : s.definitionChanges = UInt32.ofNat (changes.countP Mutation.isDefinition)
  definitionLevel :
    s.definitionLevel = Level.highest ((changes.filter Mutation.isDefinition).map Mutation.level)
  guardedDefinitionChanges :
    s.guardedDefinitionChanges = UInt32.ofNat (changes.countP Mutation.isFeatureGuarded)
  pipelineDefinitionChanges :
    s.pipelineDefinitionChanges = UInt32.ofNat (changes.countP Mutation.isPipeline)

private theorem tallies_empty : Tallies [] {} := ⟨rfl, rfl, rfl, rfl, rfl, rfl⟩

private theorem ofNat_countP_concat (p : Mutation → Bool) (changes : List Mutation) (m : Mutation) :
    UInt32.ofNat ((changes ++ [m]).countP p) =
      UInt32.ofNat (changes.countP p) + (p m).toUInt32 := by
  rw [List.countP_append, UInt32.ofNat_add, List.countP_singleton]
  cases p m <;> rfl

theorem Tallies.record {changes : List Mutation} {s : BlockStats} (h : s.Tallies changes)
    (m : Mutation) : (s.record m).Tallies (changes ++ [m]) where
  level := by
    rw [level_record, h.level, List.map_append, List.map_singleton, Level.highest_concat]
  structuralChanges := by
    rw [structuralChanges_record, h.structuralChanges, ofNat_countP_concat]
  definitionChanges := by
    rw [definitionChanges_record, h.definitionChanges, ofNat_countP_concat]
  definitionLevel := by
    rw [definitionLevel_record, h.definitionLevel, List.filter_append]
    cases kind : m.isDefinition <;> simp [kind]
  guardedDefinitionChanges := by
    rw [guardedDefinitionChanges_record, h.guardedDefinitionChanges, ofNat_countP_concat]
  pipelineDefinitionChanges := by
    rw [pipelineDefinitionChanges_record, h.pipelineDefinitionChanges, ofNat_countP_concat]

theorem Tallies.foldl_record {changes : List Mutation} {s : BlockStats} (h : s.Tallies changes)
    (more : List Mutation) : (more.foldl BlockStats.record s).Tallies (changes ++ more) := by
  induction more generalizing changes s with
  | nil => simpa using h
  | cons m rest ih => simpa using ih (h.record m)

/-- The numbers themselves, when they fit. -/
structure Counts (changes : List Mutation) (s : BlockStats) : Prop where
  structuralChanges : s.structuralChanges.toNat = changes.countP (!·.isDefinition)
  definitionChanges : s.definitionChanges.toNat = changes.countP Mutation.isDefinition
  guardedDefinitionChanges :
    s.guardedDefinitionChanges.toNat = changes.countP Mutation.isFeatureGuarded
  pipelineDefinitionChanges :
    s.pipelineDefinitionChanges.toNat = changes.countP Mutation.isPipeline

private theorem toNat_ofNat_countP {changes : List Mutation} (fits : changes.length < UInt32.size)
    (p : Mutation → Bool) : (UInt32.ofNat (changes.countP p)).toNat = changes.countP p :=
  UInt32.toNat_ofNat_of_lt' (Nat.lt_of_le_of_lt List.countP_le_length fits)

theorem Tallies.counts {changes : List Mutation} {s : BlockStats} (h : s.Tallies changes)
    (fits : changes.length < UInt32.size) : s.Counts changes where
  structuralChanges := by rw [h.structuralChanges, toNat_ofNat_countP fits]
  definitionChanges := by rw [h.definitionChanges, toNat_ofNat_countP fits]
  guardedDefinitionChanges := by rw [h.guardedDefinitionChanges, toNat_ofNat_countP fits]
  pipelineDefinitionChanges := by rw [h.pipelineDefinitionChanges, toNat_ofNat_countP fits]

theorem Counts.total {changes : List Mutation} {s : BlockStats} (h : s.Counts changes) :
    s.structuralChanges.toNat + s.definitionChanges.toNat = changes.length := by
  rw [h.structuralChanges, h.definitionChanges, Nat.add_comm,
    List.length_eq_countP_add_countP Mutation.isDefinition]
  simp

end BlockStats

namespace Event

theorem tallies_of_found {events : List Event} {key : BlockKey} {stats : BlockStats}
    (found : (events.foldl count {})[key]? = some stats) :
    stats.Tallies (changesOf key events) := by
  have own := getD_blocks events key
  rw [found, Option.getD_some] at own
  rw [own]
  exact BlockStats.tallies_empty.foldl_record _

end Event

end Variability
