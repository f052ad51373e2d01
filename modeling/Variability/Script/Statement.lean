import Variability.Element
import Variability.Script.Vocabulary

/-! Scripts as lists of statements. A statement keeps only what the analysis
asks of it; everything that is not understood is `other`. -/
namespace Variability

inductive FlowKind where
  | conditional
  | loop
  deriving DecidableEq, Repr

structure ControlFlow where
  selector : String
  kind : FlowKind
  condition : Option Element

mutual
inductive Statement where
  /-- A new block is made and a variable holds it. -/
  | define (name label : String)
  | assign (name : String) (value : Element)
  /-- A list is edited in place; the variable that holds it, if one does. -/
  | editList (target : Option String)
  /-- An attribute of a block is changed while the project runs. -/
  | setAttribute (attr : String) (target value : Element)
  | control (flow : ControlFlow) (bodies : List Script)
  | other

inductive Script where
  | mk (element : Element) (statements : List Statement)
end

def Script.element : Script → Element
  | .mk element _ => element

def Script.statements : Script → List Statement
  | .mk _ statements => statements

namespace Statement

def arguments (node : Element) : List Element :=
  node.children.filter fun c => c.tag == "l" || c.isBlockLike

def ofDefine (node : Element) : Statement :=
  match node.childrenNamed "l" with
  | name :: label :: _ =>
    if name.trimmedText == "" || label.trimmedText == "" then .other
    else .define name.trimmedText label.trimmedText
  | _ => .other

def ofAssign (node : Element) : Statement :=
  match arguments node with
  | name :: value :: _ =>
    if name.tag == "l" && name.trimmedText != "" then .assign name.trimmedText value else .other
  | _ => .other

def ofSetAttribute (node : Element) : Statement :=
  match arguments node with
  | attr :: target :: value :: _ =>
    .setAttribute (if attr.tag == "l" then attr.optionText else "") target value
  | _ => .other

def ofListEdit (node : Element) : Statement :=
  .editList ((node.childrenNamed "block").findSome? Element.variableName?)

def flow? (node : Element) : Option ControlFlow :=
  let selector := node.selector
  if Vocabulary.isConditional selector then some ⟨selector, .conditional, node.blockLikeChild?⟩
  else if Vocabulary.isLoop selector then some ⟨selector, .loop, node.blockLikeChild?⟩
  else none

end Statement

mutual
/-- A statement is known by its operation, whatever its tag. -/
def Statement.classify : Element → Statement
  | ⟨tag, attributes, text, children⟩ =>
    let node : Element := ⟨tag, attributes, text, children⟩
    match node.selector with
    | "doDefineBlock" => .ofDefine node
    | "doSetVar" => .ofAssign node
    | "doSetBlockAttribute" => .ofSetAttribute node
    | selector =>
      if Vocabulary.isListEdit selector then .ofListEdit node
      else
        match Statement.flow? node with
        | some flow => .control flow (Script.bodies children)
        | none => .other

/-- The statements of a script are its blocks. -/
def Script.ofElement : Element → Script
  | ⟨tag, attributes, text, children⟩ =>
    .mk ⟨tag, attributes, text, children⟩ (Script.blocks children)

def Script.blocks : List Element → List Statement
  | [] => []
  | c :: rest =>
    if c.tag == "block" then Statement.classify c :: Script.blocks rest else Script.blocks rest

def Script.bodies : List Element → List Script
  | [] => []
  | c :: rest =>
    if c.tag == "script" then Script.ofElement c :: Script.bodies rest else Script.bodies rest
end

end Variability
