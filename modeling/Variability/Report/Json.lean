import Variability.Analysis.Result
import Variability.Hash.Parts
import Variability.Json.Basic

/-! The report as JSON. -/
namespace Variability

def FeatureSource.fields : FeatureSource → List (String × Json)
  | .slider low high =>
    [("kind", .str "slider"), ("min", low.elim .null .real), ("max", high.elim .null .real)]
  | .answer => [("kind", .str "answer")]

def FeatureSource.toJson (s : FeatureSource) : Json := .obj s.fields

def Level.toJson (level : Level) : Json := .nat level.toNat

def BlockStats.fields (s : BlockStats) : List (String × Json) :=
  [("level", s.level.toJson),
    ("structural_changes", .nat s.structuralChanges.toNat),
    ("definition_changes", .nat s.definitionChanges.toNat),
    ("definition_level", s.definitionLevel.toJson),
    ("feature_guarded_definition_changes", .nat s.guardedDefinitionChanges.toNat),
    ("ast_pipeline_definition_changes", .nat s.pipelineDefinitionChanges.toNat)]

def UnknownEvent.toJson (e : UnknownEvent) : Json :=
  .obj [("owner", .str e.owner), ("attribute", .str e.attr),
    ("is_definition", .bool e.isDefinition), ("inferred_level", e.level.toJson),
    ("feature_guarded", .bool e.featureGuarded), ("note", .str e.note)]

def FeatureSummary.toJson (f : FeatureSummary) : Json :=
  .obj [("name", .str f.name), ("source", f.source.toJson),
    ("scattering_count", .nat f.scripts), ("is_dead", .bool f.isDead)]

namespace Report

def idJson (id : ScriptId) : Json := .str (Hash.toHex id)

def blockJson (key : BlockKey) (stats : BlockStats) : Json :=
  .obj ([("owner", .str key.owner), ("name", .str key.name)] ++ stats.fields)

def toJson (a : Analysis) (includeUnknown : Bool) : Json :=
  .obj (
    [("project_level", a.projectLevel.toJson),
      ("blocks", .arr (a.sortedBlocks.map fun (key, stats) => blockJson key stats))] ++
    (if includeUnknown then
      [("unknown_events", .arr (a.unknownEvents.map UnknownEvent.toJson))] else []) ++
    [("total_scripts", .nat a.totalScripts),
      ("duplicate_scripts", .nat a.duplicateScripts),
      ("duplication_ratio", .real a.duplicationRatio),
      ("total_combinations", .nat a.totalCombinations),
      ("tangling_dict", .obj (a.tangling.toList.map fun (id, n) => (Hash.toHex id, .nat n))),
      ("scattering_dict", .obj (a.scattering.toList.map fun (name, ids) =>
        (name, .arr (ids.toList.map idJson)))),
      ("dead_features", .arr (a.deadFeatures.toList.map .str)),
      ("max_tangling", .nat a.maxTangling),
      ("features", .arr (a.featureSummaries.map FeatureSummary.toJson))])

end Report
end Variability
