import Std.Data.TreeSet
import Variability.Element
import Variability.Script.Vocabulary

/-! What an expression tells about the code it may hold: the variables it
reads, and whether it joins words, splits a text into blocks, or calls a block
that handles code. -/
namespace Variability

abbrev NameSet := Std.TreeSet String

structure Facts where
  varNames : NameSet := {}
  joins : Bool := false
  splitsBlocks : Bool := false
  callsLibrary : Bool := false

/-- A text split whose way of splitting is by blocks. -/
def splitsByBlocks (split : Element) : Bool :=
  (split.childrenNamed "l").any (·.optionText == "blocks")

namespace Facts

def note (facts : Facts) (node : Element) : Facts :=
  if node.tag == "block" then
    { facts with
      varNames := node.variableName?.elim facts.varNames facts.varNames.insert
      joins := facts.joins || node.selector == "reportJoinWords"
      splitsBlocks := facts.splitsBlocks ||
        (node.selector == "reportTextSplit" && splitsByBlocks node) }
  else if node.tag == "custom-block" then
    { facts with callsLibrary := facts.callsLibrary || Vocabulary.mentionsCode node.selector }
  else facts

def ofElement (expr : Element) : Facts :=
  expr.descendants.foldl note {}

def ofOption (expr : Option Element) : Facts :=
  expr.elim {} ofElement

def isCode (facts : Facts) : Bool := facts.splitsBlocks || facts.callsLibrary

/-- Whether one of the variables is read; the smaller set is searched for in
the larger. -/
def reads (facts : Facts) (names : NameSet) : Bool :=
  if facts.varNames.size ≤ names.size then facts.varNames.any names.contains
  else names.any facts.varNames.contains

end Facts

/-- The variables that an expression reads, in document order and as often as
they are read. -/
def variableReads (expr : Element) : List String :=
  (expr.descendantsNamed "block").filterMap Element.variableName?

end Variability
