import Variability.Analysis.Mutation
import Variability.Text.LowerCase

/-! Blocks by owner and name, and what is known of each block's changes. -/
namespace Variability

structure BlockKey where
  owner : String
  name : String
  deriving DecidableEq, Repr

namespace BlockKey

instance : Ord BlockKey :=
  ⟨compareLex (compareOn BlockKey.owner) (compareOn BlockKey.name)⟩

def describe (k : BlockKey) : String := k.owner ++ "::" ++ k.name

/-- Reports list blocks without regard to letter case. -/
def sortKey (k : BlockKey) : String := Text.lowerCase k.describe

end BlockKey

/-- The counters start again at zero after 32 bits. -/
structure BlockStats where
  level : Level := .untouched
  structuralChanges : UInt32 := 0
  definitionChanges : UInt32 := 0
  definitionLevel : Level := .untouched
  guardedDefinitionChanges : UInt32 := 0
  pipelineDefinitionChanges : UInt32 := 0
  deriving DecidableEq, Repr

namespace BlockStats

def recordStructural (s : BlockStats) : BlockStats :=
  { s with
    structuralChanges := s.structuralChanges + 1
    level := max s.level .structural }

def recordDefinition (s : BlockStats) (level : Level) (guarded pipeline : Bool) : BlockStats :=
  { s with
    level := max s.level level
    definitionChanges := s.definitionChanges + 1
    definitionLevel := max s.definitionLevel level
    guardedDefinitionChanges := s.guardedDefinitionChanges + guarded.toUInt32
    pipelineDefinitionChanges := s.pipelineDefinitionChanges + pipeline.toUInt32 }

def record (s : BlockStats) (m : Mutation) : BlockStats :=
  if m.isDefinition then s.recordDefinition m.level m.isFeatureGuarded m.isPipeline
  else s.recordStructural

end BlockStats
end Variability
