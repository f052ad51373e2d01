import Variability.Analysis.Level
import Variability.Script.Scope
import Variability.Script.Statement

/-! The changes of blocks that a script makes, in the order in which reading it
meets them. Every branch of a control-flow statement is read from the scope at
the statement, so branches do not see each other; what they find out about code
is known after the statement. -/
namespace Variability

/-- What a new definition is made of, given the scope. -/
structure Evidence where
  /-- It reads a variable that may hold code. -/
  readsCode : Bool
  joins : Bool
  splitsBlocks : Bool
  /-- It reads such a variable that was edited. -/
  readsEdited : Bool
  /-- It is code itself. -/
  isCode : Bool
  deriving DecidableEq, Repr

namespace Evidence

def gather (scope : Scope) (value : Element) : Evidence :=
  let facts := Facts.ofElement value
  { readsCode := facts.reads scope.tainted
    joins := facts.joins
    splitsBlocks := facts.splitsBlocks
    readsEdited := facts.reads scope.mutated
    isCode := facts.isCode }

/-- Code was taken apart and put together again. -/
def isPipeline (e : Evidence) : Bool :=
  (e.readsCode && (e.joins || e.splitsBlocks || e.readsEdited)) || (e.isCode && e.joins)

def boolText (b : Bool) : String := if b then "true" else "false"

def describe (e : Evidence) : String :=
  "refs_ast_vars=" ++ boolText e.readsCode ++ ", join=" ++ boolText e.joins ++
    ", split=" ++ boolText e.splitsBlocks ++ ", mutated_ast=" ++ boolText e.readsEdited ++
    ", ast_like=" ++ boolText e.isCode

end Evidence

inductive Change where
  | structural (attr : String)
  | definition (evidence : Evidence) (guarded : Bool)
  deriving DecidableEq, Repr

structure Mutation where
  resolution : Resolution
  change : Change
  deriving DecidableEq, Repr

namespace Mutation

def attr (m : Mutation) : String :=
  match m.change with
  | .structural attr => attr
  | .definition .. => "definition"

def isDefinition (m : Mutation) : Bool :=
  match m.change with
  | .structural _ => false
  | .definition .. => true

def isPipeline (m : Mutation) : Bool :=
  match m.change with
  | .structural _ => false
  | .definition evidence _ => evidence.isPipeline

def level (m : Mutation) : Level :=
  if !m.isDefinition then .structural else if m.isPipeline then .pipeline else .definition

/-- A definition is changed under a conditional on a configured variable. -/
def isFeatureGuarded (m : Mutation) : Bool :=
  match m.change with
  | .structural _ => false
  | .definition _ guarded => guarded

/-- Why the block is not known, and for a definition what it is made of. -/
def note (m : Mutation) : String :=
  match m.change with
  | .structural _ => m.resolution.reason.describe
  | .definition evidence _ => m.resolution.reason.describe ++ "; " ++ evidence.describe

def ofSetAttribute (scope : Scope) (attr : String) (target value : Element) : Mutation :=
  { resolution := Resolution.ofElement scope.bindings target
    change :=
      if attr == "definition" then .definition (Evidence.gather scope value) scope.isFeatureGuarded
      else .structural attr }

end Mutation

/-- Conditionals guard their branches; loops do not. -/
def ControlFlow.guard? (isFeature : String → Bool) (flow : ControlFlow) : Option Guard :=
  match flow.kind with
  | .conditional =>
    let reads := flow.condition.elim [] variableReads
    some ⟨flow.selector, (reads.filter isFeature).eraseDups⟩
  | .loop => none

mutual
def Statement.run (isFeature : String → Bool) : Statement → Scope → Scope × List Mutation
  | .define name label, scope => (scope.bind name label, [])
  | .assign name value, scope =>
    (if (Facts.ofElement value).isCode then scope.taint name else scope, [])
  | .editList target, scope => (target.elim scope scope.markMutated, [])
  | .setAttribute attr target value, scope =>
    (scope, [Mutation.ofSetAttribute scope attr target value])
  | .control flow bodies, scope =>
    Script.runBranches isFeature (scope.nested (flow.guard? isFeature)) bodies scope
  | .other, scope => (scope, [])

def Script.runStatements (isFeature : String → Bool) :
    List Statement → Scope → Scope × List Mutation
  | [], scope => (scope, [])
  | statement :: rest, scope =>
    let (scope, made) := statement.run isFeature scope
    let (scope, more) := Script.runStatements isFeature rest scope
    (scope, made ++ more)

def Script.run (isFeature : String → Bool) : Script → Scope → Scope × List Mutation
  | .mk _ statements, scope => Script.runStatements isFeature statements scope

/-- Every branch starts from `base`; the scope takes in what each finds out. -/
def Script.runBranches (isFeature : String → Bool) (base : Scope) :
    List Script → Scope → Scope × List Mutation
  | [], scope => (scope, [])
  | body :: rest, scope =>
    let (branch, made) := body.run isFeature base
    let (scope, more) := Script.runBranches isFeature base rest (scope.absorb branch)
    (scope, made ++ more)
end

def Script.mutations (isFeature : String → Bool) (script : Script) : List Mutation :=
  (script.run isFeature {}).2

end Variability
