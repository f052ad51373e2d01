import Std.Data.TreeMap
import Variability.Script.Expression
import Variability.Script.Fingerprint

/-! Which scripts read which features. Scripts with one fingerprint count as
one and share what they read. -/
namespace Variability

abbrev Tangling := Std.TreeMap ScriptId Nat

abbrev Scattering := Std.TreeMap String (Std.TreeSet ScriptId)

structure Usage where
  byScript : Std.TreeMap ScriptId NameSet := {}

namespace Usage

def record (u : Usage) (id : ScriptId) (features : List String) : Usage :=
  if features.isEmpty then u
  else ⟨u.byScript.alter id fun known => some ((known.getD {}).insertMany features)⟩

/-- How many features each script reads. -/
def tangling (u : Usage) : Tangling :=
  u.byScript.map fun _ features => features.size

def scatter (id : ScriptId) (s : Scattering) (feature : String) : Scattering :=
  s.alter feature fun ids => some ((ids.getD {}).insert id)

/-- The scripts that read each feature. -/
def scattering (u : Usage) : Scattering :=
  u.byScript.foldl (fun s id features => features.foldl (scatter id) s) {}

end Usage

def deadFeatures (configured : List String) (scattering : Scattering) : NameSet :=
  Std.TreeSet.ofList (configured.filter fun name => !scattering.contains name)

end Variability
