import Std.Data.TreeSet
import Variability.Script.Expression
import Variability.Script.Resolution

/-! What is known at a point of a script. Bindings and guards belong to the
level of the script that made them; that a variable holds code, or that such a
variable was edited, is remembered after the branch that found it out. -/
namespace Variability

/-- An enclosing conditional and the configured variables that it tests. -/
structure Guard where
  selector : String
  features : List String
  deriving DecidableEq, Repr

def Guard.isFeatureGuard (g : Guard) : Bool := !g.features.isEmpty

structure Scope where
  bindings : Bindings := {}
  /-- Variables that may hold code. -/
  tainted : NameSet := {}
  /-- Those that were edited since. -/
  mutated : NameSet := {}
  /-- Outermost first. -/
  guards : List Guard := []

namespace Scope

def bind (s : Scope) (name label : String) : Scope :=
  { s with bindings := s.bindings.insert name label }

def taint (s : Scope) (name : String) : Scope :=
  { s with tainted := s.tainted.insert name }

/-- Only an edit of code counts. -/
def markMutated (s : Scope) (name : String) : Scope :=
  if s.tainted.contains name then { s with mutated := s.mutated.insert name } else s

def isFeatureGuarded (s : Scope) : Bool := s.guards.any Guard.isFeatureGuard

def nested (s : Scope) (guard : Option Guard) : Scope :=
  { s with guards := s.guards ++ guard.toList }

/-- What stays known after a branch. -/
def absorb (s branch : Scope) : Scope :=
  { s with tainted := s.tainted ∪ branch.tainted, mutated := s.mutated ∪ branch.mutated }

end Scope
end Variability
