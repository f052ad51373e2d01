import Std.Data.TreeSet
import Variability.Element
import Variability.Hash.Parts

/-! Fingerprints of scripts. Two scripts with the same operations in the same
order have the same fingerprint, whatever their literals and variables. -/
namespace Variability

abbrev ScriptId := UInt64

/-- The operations of a script as written, in document order. -/
def operations (script : Element) : List String :=
  (script.descendants.filter Element.isBlockLike).filterMap fun node =>
    (node.attr? "s").filter (· != "")

def fingerprint (script : Element) : ScriptId :=
  (Hash.Parts.ofList (operations script)).digest

/-- The fingerprints met so far, and how many were met before. -/
structure Repeats where
  seen : Std.TreeSet ScriptId := {}
  total : Nat := 0
  duplicates : Nat := 0

def Repeats.isRepeat (r : Repeats) (id : ScriptId) : Bool := r.seen.contains id

def Repeats.record (r : Repeats) (id : ScriptId) : Repeats :=
  { seen := r.seen.insert id
    total := r.total + 1
    duplicates := if r.isRepeat id then r.duplicates + 1 else r.duplicates }

def duplicationRatio (duplicates total : Nat) : Float :=
  if total == 0 then 0.0 else duplicates.toFloat / total.toFloat * 100.0

end Variability
