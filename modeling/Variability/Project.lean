import Variability.Element

/-! A project and its outline. A project has scenes; a scene has block
definitions of its own, a stage and sprites; the stage and every sprite own
block definitions and scripts. -/
namespace Variability

structure Project where
  root : Element
  /-- How many subtrees were dropped while loading. -/
  discarded : Nat := 0
  deriving Repr

structure Owner where
  name : String
  element : Element

structure Definition where
  element : Element
  name : String
  body : Option Element

namespace Outline

def globalOwner : String := "Global"
def stageOwner : String := "Stage"
def unnamedSprite : String := "(unnamed sprite)"

def scenes (root : Element) : List Element :=
  root.properDescendants.filter (·.tag == "scene")

/-- A project without scenes is a scene itself. -/
def scenesOrRoot (root : Element) : List Element :=
  match scenes root with
  | [] => [root]
  | found => found

def definition (element : Element) : Definition :=
  ⟨element, element.selector, element.child? "script"⟩

def definitions (holder : Element) : List Definition :=
  match holder.child? "blocks" with
  | some blocks => (blocks.childrenNamed "block-definition").map definition
  | none => []

def spriteName (sprite : Element) : String :=
  ((sprite.attr? "name").filter (· != "")).getD unnamedSprite

def owners (scene : Element) : List Owner :=
  let stage := ((scene.child? "stage").map (Owner.mk stageOwner)).toList
  let groups := scene.properDescendants.filter (·.tag == "sprites")
  let sprites := groups.flatMap (·.childrenNamed "sprite")
  stage ++ sprites.map fun sprite => ⟨spriteName sprite, sprite⟩

def scripts (owner : Element) : List Element :=
  match owner.child? "scripts" with
  | some scripts => scripts.childrenNamed "script"
  | none => []

def watchers (root : Element) : List Element :=
  root.descendantsNamed "watcher"

end Outline
end Variability
