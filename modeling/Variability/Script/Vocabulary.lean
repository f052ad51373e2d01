import Variability.Text.Blank
import Variability.Text.LowerCase

/-! The operations of the block language that matter to the analysis. -/
namespace Variability.Vocabulary

def conditionals : List String :=
  ["doIf", "doIfElse", "doUntil", "doRepeatUntil", "doWaitUntil"]

def loops : List String :=
  ["doForever", "doRepeat", "doFor", "doForEach"]

def listEdits : List String :=
  ["doReplaceInList", "doInsertInList", "doDeleteFromList", "doAddToList", "doSetItemOfList"]

/-- Wrappers that turn code into a value. -/
def reifications : List String :=
  ["reifyReporter", "reifyScript", "reifyPredicate"]

/-- Words in the names of blocks that take code apart or put it together. -/
def codeWords : List String :=
  ["scriptify", "blockify", "inject"]

/-- How the names of the metaprogramming library's own blocks begin. -/
def libraryOpenings : List String :=
  ["scriptify", "blockify", "inject", "callers of", "call stack",
    "get variable name of caller", "set variable name of caller"]

def isConditional (selector : String) : Bool := conditionals.contains selector

def isLoop (selector : String) : Bool := loops.contains selector

def isControlFlow (selector : String) : Bool := isConditional selector || isLoop selector

def isListEdit (selector : String) : Bool := listEdits.contains selector

def isReification (selector : String) : Bool := reifications.contains selector

def occursIn (word : List Char) : List Char → Bool
  | [] => word.isEmpty
  | c :: rest => word.isPrefixOf (c :: rest) || occursIn word rest

/-- Letter case does not matter. -/
def mentionsCode (name : String) : Bool :=
  let lower := (Text.lowerCase name).toList
  codeWords.any fun word => occursIn word.toList lower

def isLibraryDefinition (name : String) : Bool :=
  let lower := (Text.lowerCase (Text.trim name)).toList
  libraryOpenings.any fun opening => opening.toList.isPrefixOf lower

end Variability.Vocabulary
