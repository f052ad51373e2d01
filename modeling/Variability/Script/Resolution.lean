import Std.Data.TreeMap
import Variability.Element
import Variability.Script.Vocabulary

/-! Which block a change is about. A variable stands for the block that was
bound to it; anything else for the first block of the project that it names. -/
namespace Variability

/-- The labels of the blocks that variables hold. -/
abbrev Bindings := Std.TreeMap String String

/-- Why a block is known, or why it is not. -/
inductive Reason where
  | missingTarget
  | fromVariable (name : String)
  | unboundVariable (name : String)
  | directReference
  | insideReification (wrapper : String)
  | emptyReification (wrapper : String)
  | foundInSubtree
  | unidentifiable
  deriving DecidableEq, Repr

def Reason.describe : Reason → String
  | .missingTarget => "missing target element"
  | .fromVariable name => s!"resolved from variable '{name}'"
  | .unboundVariable name =>
    s!"unbound variable '{name}' (no defining operation established it in scope)"
  | .directReference => "direct reference"
  | .insideReification wrapper => s!"named operation inside {wrapper}"
  | .emptyReification wrapper => s!"{wrapper}: reification wrapper without nested operation"
  | .foundInSubtree => "named operation found in subtree"
  | .unidentifiable => "target unresolved (no identifiable operation in expression)"

structure Resolution where
  /-- The label of the block, when it is known. -/
  target? : Option String
  reason : Reason
  deriving DecidableEq, Repr

namespace Resolution

def resolved (label : String) (reason : Reason) : Resolution := ⟨some label, reason⟩

def unresolved (reason : Reason) : Resolution := ⟨none, reason⟩

/-- The first block of the project that is named in the tree. Such a block at
the top is the only candidate. -/
def firstNamed? (node : Element) : Option String :=
  let candidates := if node.tag == "custom-block" then [node]
    else node.descendantsNamed "custom-block"
  (candidates.map Element.selector).find? (· != "")

def ofElement (bindings : Bindings) (target : Element) : Resolution :=
  match target.variableName? with
  | some name =>
    match bindings[name]? with
    | some label => resolved label (.fromVariable name)
    | none => unresolved (.unboundVariable name)
  | none =>
    let selector := target.selector
    if target.tag == "custom-block" && selector != "" then resolved selector .directReference
    else if Vocabulary.isReification selector then
      match firstNamed? target with
      | some name => resolved name (.insideReification selector)
      | none => unresolved (.emptyReification selector)
    else
      match firstNamed? target with
      | some name => resolved name .foundInSubtree
      | none => unresolved .unidentifiable

def ofOption (bindings : Bindings) (target : Option Element) : Resolution :=
  target.elim (unresolved .missingTarget) (ofElement bindings)

end Resolution
end Variability
