import Std.Data.TreeMap
import Variability.Analysis.BlockStats
import Variability.Feature.Configured
import Variability.Feature.Usage

/-! The result of an analysis. -/
namespace Variability

/-- A change of a block that could not be told. -/
structure UnknownEvent where
  owner : String
  attr : String
  isDefinition : Bool
  level : Level
  featureGuarded : Bool
  note : String
  deriving DecidableEq, Repr

def UnknownEvent.ofMutation (owner : String) (m : Mutation) : UnknownEvent :=
  ⟨owner, m.attr, m.isDefinition, m.level, m.isFeatureGuarded, m.note⟩

structure FeatureSummary where
  name : String
  source : FeatureSource
  scripts : Nat
  isDead : Bool

abbrev Blocks := Std.TreeMap BlockKey BlockStats

structure Analysis where
  projectLevel : Level
  blocks : Blocks
  unknownEvents : List UnknownEvent
  totalScripts : Nat
  duplicateScripts : Nat
  duplicationRatio : Float
  totalCombinations : Nat
  tangling : Tangling
  scattering : Scattering
  deadFeatures : NameSet
  configured : List (String × FeatureSource)
  discarded : Nat

def projectLevel (blocks : Blocks) (unknown : List UnknownEvent) : Level :=
  Level.highest (blocks.values.map BlockStats.level ++ unknown.map UnknownEvent.level)

namespace Analysis

def maxTangling (a : Analysis) : Nat := a.tangling.values.foldl max 0

/-- By sort key; blocks with one sort key stay in the order of their keys. -/
def sortedBlocks (a : Analysis) : List (BlockKey × BlockStats) :=
  let keyed := a.blocks.toList.map fun (key, stats) => (key.sortKey, key, stats)
  (keyed.mergeSort fun x y => (compare x.1 y.1).isLE).map Prod.snd

def featureSummaries (a : Analysis) : List FeatureSummary :=
  a.configured.map fun (name, source) =>
    { name, source
      scripts := (a.scattering[name]?.map Std.TreeSet.size).getD 0
      isDead := a.deadFeatures.contains name }

def hasChanges (a : Analysis) (includeUnknown : Bool) : Bool :=
  !a.blocks.isEmpty || (includeUnknown && !a.unknownEvents.isEmpty)

end Analysis
end Variability
