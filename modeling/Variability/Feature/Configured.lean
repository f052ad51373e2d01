import Std.Data.TreeMap
import Variability.Feature.Slider
import Variability.Project
import Variability.Script.Expression

/-! The variables that a user configures: by a slider on the stage, or by the
answer to a question. Each slider with two bounds multiplies the number of
configurations. -/
namespace Variability

inductive FeatureSource where
  | slider (low high : Option Float)
  | answer

structure Configured where
  sources : Std.TreeMap String FeatureSource := {}
  combinations : Nat := 1

namespace Configured

def names (c : Configured) : List String := c.sources.keys

def contains (c : Configured) (name : String) : Bool := c.sources.contains name

/-- A variable keeps its first source. -/
def add (c : Configured) (name : String) (source : FeatureSource) : Configured :=
  { c with sources := c.sources.insertIfNew name source }

def isSlider (watcher : Element) : Bool :=
  let style := Text.trim ((watcher.attr? "style").getD "")
  style.toList.map Char.toLower == "slider".toList

/-- The settings of a slider with two bounds; one without contributes none. -/
def states? (watcher : Element) : Option Nat := do
  let low ← (watcher.attr? "min").bind readBound
  let high ← (watcher.attr? "max").bind readBound
  sliderStates low high

def watched? (watcher : Element) : Option String :=
  ((watcher.attr? "var").map Text.trim).filter (· != "")

def addWatcher (c : Configured) (watcher : Element) : Configured :=
  if !isSlider watcher then c
  else
    let c := { c with combinations := saturate (c.combinations * (states? watcher).getD 1) }
    match watched? watcher with
    | some name =>
      c.add name (.slider ((watcher.attr? "min").bind readBound)
        ((watcher.attr? "max").bind readBound))
    | none => c

/-- The variable that a block sets to the last answer. -/
def answered? (block : Element) : Option String :=
  match block.children with
  | name :: value :: _ =>
    if block.selector == "doSetVar" && value.tag == "block" &&
        value.selector == "getLastAnswer" && name.trimmedText != "" then
      some name.trimmedText
    else none
  | _ => none

def addAnswer (c : Configured) (block : Element) : Configured :=
  match answered? block with
  | some name => c.add name .answer
  | none => c

/-- Sliders first, then answers. -/
def collect (root : Element) : Configured :=
  (root.descendantsNamed "block").foldl addAnswer ((Outline.watchers root).foldl addWatcher {})

/-- The configured variables that a tree reads, in document order and as often
as they are read. -/
def readBy (c : Configured) (tree : Element) : List String :=
  (variableReads tree).filter c.contains

end Configured
end Variability
