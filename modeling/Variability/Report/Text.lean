import Variability.Analysis.Result
import Variability.Decimal.Layout

/-! The report as text for people. -/
namespace Variability.Report

/-- Bounds are written out in full, whole numbers without a point, and a tie
between two shortest decimals goes up. -/
def boundLayout : Decimal.Layout := ⟨none, false, .up⟩

def boundText (bound : Option Float) : String :=
  bound.elim "?" boundLayout.write

/-- Percentages have two places, and a half goes to the even neighbour. -/
def percentText (x : Float) : String := Decimal.fixedPlaces .toEven 2 x

def levelText (level : Level) : String := toString level.toNat

def unlines (lines : List String) : String :=
  String.join (lines.map (· ++ "\n"))

def header : List String :=
  ["=== SPLASP! - Software Product Line Analyzer for Snap! Projects ===", ""]

def levelLines (level : Level) : List String :=
  ["Project level: " ++ levelText level] ++
    Level.all.map (fun l => "  " ++ levelText l ++ " = " ++ l.describe) ++ [""]

def blockLines (key : BlockKey) (s : BlockStats) : List String :=
  ["- " ++ key.describe,
    "    level=" ++ levelText s.level,
    s!"    structural_changes={s.structuralChanges}",
    s!"    definition_changes={s.definitionChanges} (definition_level=" ++
      levelText s.definitionLevel ++ ")"] ++
  (if s.definitionChanges == 0 then []
    else
      [s!"    feature_guarded_definition_changes={s.guardedDefinitionChanges}",
        s!"    ast_pipeline_definition_changes={s.pipelineDefinitionChanges}"]) ++
  [""]

def unknownLines (e : UnknownEvent) : List String :=
  ["- owner=" ++ e.owner ++ " attr=" ++ e.attr ++
      (if e.isDefinition then " (definition)" else " (structural)") ++
      " level~" ++ levelText e.level ++
      (if e.featureGuarded then " feature-guard" else " no-guard"),
    "    note: " ++ e.note]

def sourceText : FeatureSource → String
  | .slider low high => "slider " ++ boundText low ++ ".." ++ boundText high
  | .answer => "answer"

def featureLine (f : FeatureSummary) : String :=
  "- " ++ f.name ++ " (" ++ sourceText f.source ++ ") scripts=" ++ toString f.scripts ++
    (if f.isDead then " dead" else "")

def summaryLines (a : Analysis) : List String :=
  let features := a.featureSummaries
  [s!"Scripts: total={a.totalScripts} duplicates={a.duplicateScripts} (duplication_ratio=" ++
      percentText a.duplicationRatio ++ "%)",
    s!"Configuration space: total_combinations={a.totalCombinations}"] ++
  (if features.isEmpty then ["No configured feature variables were found."]
    else s!"Features (max_tangling={a.maxTangling}):" :: features.map featureLine)

def summary (a : Analysis) : String := unlines (summaryLines a)

def toText (a : Analysis) (includeUnknown : Bool) : String :=
  unlines (
    header ++ levelLines a.projectLevel ++
    (if a.hasChanges includeUnknown then []
      else ["No doSetBlockAttribute-based modifications were detected.", ""]) ++
    (if a.blocks.isEmpty then []
      else ["Modified blocks (by owner::block):", ""] ++
        a.sortedBlocks.flatMap fun (key, stats) => blockLines key stats) ++
    (if includeUnknown && !a.unknownEvents.isEmpty then
        ["Events with unresolved targets (UNKNOWN):", ""] ++
          a.unknownEvents.flatMap unknownLines ++ [""]
      else []) ++
    summaryLines a)

end Variability.Report
