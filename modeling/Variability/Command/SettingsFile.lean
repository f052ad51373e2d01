import Variability.Analysis.Survey
import Variability.Json.Basic
import Variability.Json.Reader

/-! The settings file: a schema reference and the settings of the analysis.
Each may be an object or a list of its values in order; what is not given keeps
its default. Keys that are not known are passed over, those that are known may
come once. -/
namespace Variability

structure SettingsFile where
  schema : Option String := none
  analysis : Settings := {}
  deriving DecidableEq, Repr

def Settings.toJson (s : Settings) : Json :=
  .obj [("ignoreLibraryDefinitions", .bool s.ignoreLibraryDefinitions),
    ("includeUnknownEvents", .bool s.includeUnknownEvents)]

namespace SettingsFile

/-- The value of a known key: absent, or present exactly once. -/
def field? (fields : List (String × Json.Source)) (key : String) :
    Option (Option Json.Source) :=
  match fields.filter (·.1 == key) with
  | [] => some none
  | [(_, value)] => some (some value)
  | _ => none

/-- All keys must be strings. -/
def namedFields? (fields : List (Option String × Json.Source)) :
    Option (List (String × Json.Source)) :=
  fields.mapM fun (key, value) => key.map (·, value)

/-- Up to two values by position or by key. -/
def pair? (first second : String) : Json.Source → Option (Option Json.Source × Option Json.Source)
  | .array [] => some (none, none)
  | .array [a] => some (some a, none)
  | .array [a, b] => some (some a, some b)
  | .object fields => do
    let fields ← namedFields? fields
    return (← field? fields first, ← field? fields second)
  | _ => none

def bool? (default : Bool) : Option Json.Source → Option Bool
  | none => some default
  | some (.bool value) => some value
  | some _ => none

def settings? : Option Json.Source → Option Settings
  | none => some {}
  | some source => do
    let (ignore, keep) ← pair? "ignoreLibraryDefinitions" "includeUnknownEvents" source
    return ⟨← bool? true ignore, ← bool? true keep⟩

def schema? : Option Json.Source → Option (Option String)
  | none | some .null => some none
  | some (.text content) => content.map some
  | some _ => none

def ofSource? (source : Json.Source) : Option SettingsFile := do
  let (schema, analysis) ← pair? "$schema" "analysis" source
  return ⟨← schema? schema, ← settings? analysis⟩

def parse? (document : String) : Option SettingsFile :=
  (Json.read? document).bind ofSource?

def toJson (file : SettingsFile) : Json :=
  .obj (file.schema.toList.map (fun schema => ("$schema", .str schema)) ++
    [("analysis", file.analysis.toJson)])

end SettingsFile
end Variability
