import Variability.Command.Run
import Variability.Proofs.Analysis.Invariant

/-! What a report lists. Leaving unknown events out of an analysis changes nothing else
but the level of the project; and since the command leaves them out of the analysis and
of the report by one switch, the level that a report shows is the highest of the blocks
and events that it lists. -/
namespace Variability

structure Level.IsHighest (levels : List Level) (l : Level) : Prop where
  above : ∀ other ∈ levels, other ≤ l
  attained : levels ≠ [] → l ∈ levels
  lowest : levels = [] → l = .untouched

theorem Level.isHighest_highest (levels : List Level) : IsHighest levels (highest levels) where
  above _ := le_highest
  attained := highest_mem
  lowest := by
    rintro rfl
    rfl

private theorem Level.IsHighest.of_perm {levels others : List Level} {l : Level}
    (h : IsHighest levels l)
    (same : levels.Perm others) : IsHighest others l where
  above other listed := h.above other (same.mem_iff.mpr listed)
  attained nonempty := same.mem_iff.mp (h.attained fun empty => nonempty (empty ▸ same).nil_eq.symm)
  lowest empty := h.lowest (empty ▸ same).eq_nil

theorem Analysis.sortedBlocks_perm (a : Analysis) : a.sortedBlocks.Perm a.blocks.toList := by
  have keyless : (a.blocks.toList.map fun entry => (entry.1.sortKey, entry.1, entry.2)).map
      Prod.snd = a.blocks.toList := by
    rw [List.map_map]
    exact List.map_id _
  have sorted : a.sortedBlocks.Perm _ := (List.mergeSort_perm _ _).map Prod.snd
  exact sorted.trans (List.Perm.of_eq keyless)

namespace Report

/-- The part of a report that is about changes. Events may be left out, which is not
the same as that there are none. -/
structure Listing where
  level : Level
  blocks : List (BlockKey × BlockStats)
  unknown : Option (List UnknownEvent)

namespace Listing

def ofAnalysis (a : Analysis) (includeUnknown : Bool) : Listing :=
  { level := a.projectLevel
    blocks := a.sortedBlocks
    unknown := if includeUnknown then some a.unknownEvents else none }

def events (l : Listing) : List UnknownEvent := l.unknown.getD []

def levels (l : Listing) : List Level :=
  l.blocks.map (·.2.level) ++ l.events.map UnknownEvent.level

def fields (l : Listing) : List (String × Json) :=
  [("project_level", l.level.toJson),
    ("blocks", .arr (l.blocks.map fun (key, stats) => blockJson key stats))] ++
  l.unknown.toList.map fun events => ("unknown_events", .arr (events.map UnknownEvent.toJson))

def lines (l : Listing) : List String :=
  header ++ levelLines l.level ++
  (if l.blocks.isEmpty && l.events.isEmpty then
    ["No doSetBlockAttribute-based modifications were detected.", ""] else []) ++
  (if l.blocks.isEmpty then []
    else ["Modified blocks (by owner::block):", ""] ++
      l.blocks.flatMap fun (key, stats) => blockLines key stats) ++
  (if l.events.isEmpty then []
    else ["Events with unresolved targets (UNKNOWN):", ""] ++
      l.events.flatMap unknownLines ++ [""])

@[simp] theorem events_ofAnalysis (a : Analysis) (includeUnknown : Bool) :
    (ofAnalysis a includeUnknown).events = if includeUnknown then a.unknownEvents else [] := by
  cases includeUnknown <;> rfl

@[simp] theorem isEmpty_blocks_ofAnalysis (a : Analysis) (includeUnknown : Bool) :
    (ofAnalysis a includeUnknown).blocks.isEmpty = a.blocks.isEmpty := by
  rw [show (ofAnalysis a includeUnknown).blocks = a.sortedBlocks from rfl,
    a.sortedBlocks_perm.isEmpty_eq, Std.TreeMap.isEmpty_toList]

theorem hasChanges_eq (a : Analysis) (includeUnknown : Bool) :
    a.hasChanges includeUnknown =
      !((ofAnalysis a includeUnknown).blocks.isEmpty &&
        (ofAnalysis a includeUnknown).events.isEmpty) := by
  rw [isEmpty_blocks_ofAnalysis, events_ofAnalysis, Bool.not_and, Analysis.hasChanges]
  cases includeUnknown <;> rfl

/-- The level of an analysis is the highest that is listed, provided that events are left
out of the listing only if there are none. -/
theorem isHighest_ofAnalysis {a : Analysis} {includeUnknown : Bool}
    (level : a.projectLevel = projectLevel a.blocks a.unknownEvents)
    (left : includeUnknown = false → a.unknownEvents = []) :
    Level.IsHighest (ofAnalysis a includeUnknown).levels (ofAnalysis a includeUnknown).level := by
  have events : (ofAnalysis a includeUnknown).events = a.unknownEvents := by
    cases includeUnknown with
    | true => rfl
    | false => exact (left rfl).symm
  have blocks : (a.blocks.values.map BlockStats.level).Perm (a.sortedBlocks.map (·.2.level)) := by
    rw [values_eq_map_toList, List.map_map]
    exact a.sortedBlocks_perm.symm.map _
  have highest := Level.isHighest_highest
    (a.blocks.values.map BlockStats.level ++ a.unknownEvents.map UnknownEvent.level)
  rw [levels, events, show (ofAnalysis a includeUnknown).level = _ from level]
  exact highest.of_perm (blocks.append_right _)

end Listing

def metricFields (a : Analysis) : List (String × Json) :=
  [("total_scripts", .nat a.totalScripts),
    ("duplicate_scripts", .nat a.duplicateScripts),
    ("duplication_ratio", .real a.duplicationRatio),
    ("total_combinations", .nat a.totalCombinations),
    ("tangling_dict", .obj (a.tangling.toList.map fun (id, n) => (Hash.toHex id, .nat n))),
    ("scattering_dict", .obj (a.scattering.toList.map fun (name, ids) =>
      (name, .arr (ids.toList.map idJson)))),
    ("dead_features", .arr (a.deadFeatures.toList.map .str)),
    ("max_tangling", .nat a.maxTangling),
    ("features", .arr (a.featureSummaries.map FeatureSummary.toJson))]

theorem toJson_eq (a : Analysis) (includeUnknown : Bool) :
    toJson a includeUnknown =
      .obj ((Listing.ofAnalysis a includeUnknown).fields ++ metricFields a) := by
  cases includeUnknown <;> rfl

theorem toText_eq (a : Analysis) (includeUnknown : Bool) :
    toText a includeUnknown =
      unlines ((Listing.ofAnalysis a includeUnknown).lines ++ summaryLines a) := by
  rw [toText, Listing.lines, Listing.hasChanges_eq, Listing.events_ofAnalysis,
    ← Listing.isEmpty_blocks_ofAnalysis a includeUnknown]
  cases includeUnknown with
  | false => cases (Listing.ofAnalysis a false).blocks.isEmpty <;> rfl
  | true =>
    cases (Listing.ofAnalysis a true).blocks.isEmpty <;> cases a.unknownEvents <;> rfl

def Listing.render (l : Listing) (json : Bool) (a : Analysis) : String :=
  if json then (Json.obj (l.fields ++ metricFields a)).pretty
  else unlines (l.lines ++ summaryLines a)

theorem report_eq_render (json includeUnknown : Bool) (a : Analysis) :
    Command.report json includeUnknown a =
      (Listing.ofAnalysis a includeUnknown).render json a := by
  rw [Command.report, toJson_eq, toText_eq, Listing.render]

end Report

namespace Command

def settingsFor (files : Files) (o : Options) : Settings :=
  effective (loadSettings files o.config).result.analysis o.includeLibraryDefs o.excludeUnknown

theorem run_eq_ok_iff (files : Files) (o : Options) (text : String) :
    (run files o).result = .ok text ↔
      ∃ content p, files o.path = .ok content ∧ Markup.loadBytes content = .ok p ∧
        report o.json (settingsFor files o).includeUnknownEvents
          (analyzeProject (settingsFor files o) p) = text := by
  have mapped : (run files o).result =
      (analyzeFile files (settingsFor files o) o.path).result.map
        (report o.json (settingsFor files o).includeUnknownEvents) := rfl
  rw [mapped, analyzeFile]
  cases read : files o.path with
  | error fault => simp [Except.map]
  | ok content =>
    cases loaded : Markup.loadBytes content with
    | error error => simp [Except.map, loaded]
    | ok p => simp [Except.map, loaded]

end Command

theorem analyzeProject_projectLevel (settings : Settings) (p : Project) :
    (analyzeProject settings p).projectLevel =
      projectLevel (analyzeProject settings p).blocks (analyzeProject settings p).unknownEvents :=
  rfl

private theorem unknownEvents_of_left {settings : Settings}
    (left : settings.includeUnknownEvents = false)
    (p : Project) : (analyzeProject settings p).unknownEvents = [] := by
  rw [analyzeProject_unknownEvents, Event.listed, left]
  rfl

theorem analyzeProject_without_unknown (ignore : Bool) (p : Project) :
    analyzeProject ⟨ignore, false⟩ p =
      { analyzeProject ⟨ignore, true⟩ p with
        projectLevel := (analyzeProject ⟨ignore, false⟩ p).projectLevel
        unknownEvents := [] } := by
  -- the visits do not depend on the switch, so no tally but that of the events does
  have events : p.events ⟨ignore, false⟩ = p.events ⟨ignore, true⟩ := rfl
  have ids : p.scriptIds ⟨ignore, false⟩ = p.scriptIds ⟨ignore, true⟩ := rfl
  have usage : p.usage ⟨ignore, false⟩ = p.usage ⟨ignore, true⟩ := rfl
  rw [analyzeProject_eq, analyzeProject_eq, events, ids, usage]
  rfl

/-- The switch for unknown events is a filter: it changes the events and, through them,
the level of the project. A run gives the switch to the analysis and to the report, so
the level that a report shows is the highest of what it lists. -/
theorem analyzeProject_unknown_switch :
    (∀ (ignore : Bool) (p : Project),
      let kept := analyzeProject ⟨ignore, true⟩ p
      let left := analyzeProject ⟨ignore, false⟩ p
      left = { kept with projectLevel := left.projectLevel, unknownEvents := [] } ∧
        Level.IsHighest (left.blocks.values.map BlockStats.level) left.projectLevel) ∧
      ∀ (files : Files) (o : Options) (text : String),
        let settings := Command.settingsFor files o
        (Command.run files o).result = .ok text ↔
          ∃ content p, files o.path = .ok content ∧ Markup.loadBytes content = .ok p ∧
            let result := analyzeProject settings p
            let listing := Report.Listing.ofAnalysis result settings.includeUnknownEvents
            text = listing.render o.json result ∧
              Level.IsHighest listing.levels listing.level := by
  refine ⟨fun ignore p => ⟨analyzeProject_without_unknown ignore p, ?_⟩, ?_⟩
  · rw [analyzeProject_projectLevel, projectLevel, unknownEvents_of_left rfl, List.map_nil,
      List.append_nil]
    exact Level.isHighest_highest _
  · intro files o text settings
    have highest : ∀ p, Level.IsHighest _ _ := fun p =>
      Report.Listing.isHighest_ofAnalysis (analyzeProject_projectLevel settings p)
        fun left => unknownEvents_of_left left p
    rw [Command.run_eq_ok_iff]
    constructor
    · rintro ⟨content, p, read, loaded, rfl⟩
      exact ⟨content, p, read, loaded, Report.report_eq_render .., highest p⟩
    · rintro ⟨content, p, read, loaded, same, _⟩
      exact ⟨content, p, read, loaded, by rw [same, Report.report_eq_render]⟩

end Variability
