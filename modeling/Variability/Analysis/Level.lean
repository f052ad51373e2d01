/-! How deep a change of a block goes. -/
namespace Variability

inductive Level where
  | untouched
  | structural
  | definition
  | pipeline
  deriving DecidableEq, Repr

namespace Level

def toNat : Level → Nat
  | .untouched => 0
  | .structural => 1
  | .definition => 2
  | .pipeline => 3

instance : LE Level := ⟨fun a b => a.toNat ≤ b.toNat⟩

instance (a b : Level) : Decidable (a ≤ b) := inferInstanceAs (Decidable (a.toNat ≤ b.toNat))

instance : Max Level := ⟨fun a b => if a ≤ b then b else a⟩

def all : List Level := [.untouched, .structural, .definition, .pipeline]

def describe : Level → String
  | .untouched => "no metaprogramming"
  | .structural => "structural changes (category, type, etc.)"
  | .definition => "full definition rewrite (set definition)"
  | .pipeline => "AST/pipeline-based rewrite (split/list edits/join)"

def highest (levels : List Level) : Level := levels.foldl max .untouched

end Level
end Variability
