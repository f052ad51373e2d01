import Variability.Analysis.Result

/-! The survey of a project: every definition body and every script is visited
once for each scene that holds it, and each visit adds to the tallies. -/
namespace Variability

structure Settings where
  /-- The metaprogramming library's own definitions are left out. -/
  ignoreLibraryDefinitions : Bool := true
  /-- Changes of blocks that could not be told are listed. -/
  includeUnknownEvents : Bool := true
  deriving DecidableEq, Repr

def Settings.full : Settings := { ignoreLibraryDefinitions := false }

structure Visit where
  owner : String
  script : Element

namespace Visit

def ofDefinitions (settings : Settings) (owner : String) (holder : Element) : List Visit :=
  (Outline.definitions holder).filterMap fun d =>
    if d.name == "" then none
    else if settings.ignoreLibraryDefinitions && Vocabulary.isLibraryDefinition d.name then none
    else d.body.map (Visit.mk owner)

def ofOwner (settings : Settings) (owner : Owner) : List Visit :=
  ofDefinitions settings owner.name owner.element ++
    (Outline.scripts owner.element).map (Visit.mk owner.name)

def ofScene (settings : Settings) (scene : Element) : List Visit :=
  ofDefinitions settings Outline.globalOwner scene ++
    (Outline.owners scene).flatMap (ofOwner settings)

def ofRoot (settings : Settings) (root : Element) : List Visit :=
  (Outline.scenesOrRoot root).flatMap (ofScene settings)

end Visit

structure Survey where
  settings : Settings := {}
  configured : Configured := {}
  blocks : Blocks := {}
  unknown : Array UnknownEvent := #[]
  repeats : Repeats := {}
  usage : Usage := {}
  discarded : Nat := 0

namespace Survey

def record (owner : String) (s : Survey) (m : Mutation) : Survey :=
  match m.resolution.target? with
  | some name =>
    { s with blocks :=
        s.blocks.alter ⟨owner, name⟩ fun stats => some ((stats.getD {}).record m) }
  | none =>
    if s.settings.includeUnknownEvents then
      { s with unknown := s.unknown.push (.ofMutation owner m) }
    else s

def visit (s : Survey) (v : Visit) : Survey :=
  let id := fingerprint v.script
  let mutations := (Script.ofElement v.script).mutations s.configured.contains
  let s := { s with
    repeats := s.repeats.record id
    usage := s.usage.record id (s.configured.readBy v.script) }
  mutations.foldl (record v.owner) s

/-- A survey of another project with the same settings; nothing else is kept. -/
def analyze (s : Survey) (p : Project) : Survey :=
  let start : Survey :=
    { settings := s.settings
      configured := Configured.collect p.root
      discarded := p.discarded }
  (Visit.ofRoot s.settings p.root).foldl visit start

def finish (s : Survey) : Analysis :=
  let unknown := s.unknown.toList
  let scattering := s.usage.scattering
  { projectLevel := projectLevel s.blocks unknown
    blocks := s.blocks
    unknownEvents := unknown
    totalScripts := s.repeats.total
    duplicateScripts := s.repeats.duplicates
    duplicationRatio := duplicationRatio s.repeats.duplicates s.repeats.total
    totalCombinations := s.configured.combinations
    tangling := s.usage.tangling
    scattering
    deadFeatures := deadFeatures s.configured.names scattering
    configured := s.configured.sources.toList
    discarded := s.discarded }

end Survey

def analyzeProject (settings : Settings) (p : Project) : Analysis :=
  (Survey.analyze { settings } p).finish

end Variability
