import Variability.Proofs.Element.Descendants
import Variability.Proofs.Script.Place

/-! Where the statements of a script come from. Every statement, at whatever depth, was
read from a block of the script's tree, and its parts from that block's children. -/
namespace Variability

theorem Script.blocks_eq (children : List Element) :
    Script.blocks children = (children.filter (·.tag == "block")).map Statement.classify := by
  induction children with
  | nil => rfl
  | cons c rest ih =>
    rw [Script.blocks, List.filter_cons, ih]
    split <;> rfl

theorem Script.bodies_eq (children : List Element) :
    Script.bodies children = (children.filter (·.tag == "script")).map Script.ofElement := by
  induction children with
  | nil => rfl
  | cons c rest ih =>
    rw [Script.bodies, List.filter_cons, ih]
    split <;> rfl

@[simp] theorem Script.statements_ofElement (e : Element) :
    (Script.ofElement e).statements = Script.blocks e.children := by
  cases e
  rfl

namespace Statement

/-- What a statement has from the block that it was read from: the label of a new block,
the block that is changed, and the bodies. -/
def ReadFrom (node : Element) : Statement → Prop
  | .define _ label =>
    node.selector = "doDefineBlock" ∧
      ∃ second, (node.childrenNamed "l")[1]? = some second ∧ second.trimmedText = label ∧ label ≠ ""
  | .setAttribute _ target _ => target ∈ node.children
  | .control _ bodies => bodies = Script.bodies node.children
  | _ => True

private theorem readFrom_ofDefine {node : Element} (operation : node.selector = "doDefineBlock") :
    ReadFrom node (ofDefine node) := by
  unfold ofDefine
  split
  · rename_i name label _ listed
    split
    · trivial
    · rename_i named
      rw [Bool.or_eq_true, not_or, beq_iff_eq, beq_iff_eq] at named
      exact ⟨operation, label, by rw [listed]; rfl, rfl, named.2⟩
  · trivial

private theorem readFrom_ofAssign (node : Element) : ReadFrom node (ofAssign node) := by
  unfold ofAssign
  split
  · split <;> trivial
  · trivial

private theorem readFrom_ofSetAttribute (node : Element) : ReadFrom node (ofSetAttribute node) := by
  unfold ofSetAttribute
  split
  · rename_i attr target _ _ listed
    have argument : target ∈ arguments node := by
      rw [listed]
      exact List.mem_cons_of_mem _ List.mem_cons_self
    exact (List.mem_filter.mp argument).1
  · trivial

theorem readFrom_classify (node : Element) : ReadFrom node (classify node) := by
  cases node with
  | mk tag attributes text children =>
    rw [classify]
    split
    · rename_i operation
      exact readFrom_ofDefine operation
    · exact readFrom_ofAssign _
    · exact readFrom_ofSetAttribute _
    · split
      · trivial
      · split
        · rfl
        · trivial

end Statement

theorem Place.exists_block (p : Place) (nodes : List Element)
    (blocks : ∀ node ∈ nodes, node.tag = "block") {s : Statement}
    (found : p.statement? (nodes.map Statement.classify) = some s) :
    ∃ top ∈ nodes, ∃ node, top.Holds node ∧ node.tag = "block" ∧ s.ReadFrom node := by
  induction p generalizing nodes with
  | here =>
    cases nodes with
    | nil => simp at found
    | cons first rest =>
      rw [List.map_cons, statement?_here, Option.some.injEq] at found
      exact ⟨first, List.mem_cons_self, first, .itself first, blocks first List.mem_cons_self,
        found ▸ Statement.readFrom_classify first⟩
  | next p ih =>
    cases nodes with
    | nil => simp at found
    | cons first rest =>
      rw [List.map_cons, statement?_next] at found
      obtain ⟨top, listed, source⟩ :=
        ih rest (fun node later => blocks node (List.mem_cons_of_mem _ later)) found
      exact ⟨top, List.mem_cons_of_mem _ listed, source⟩
  | inside b p ih =>
    cases nodes with
    | nil => simp at found
    | cons first rest =>
      have read := Statement.readFrom_classify first
      rw [List.map_cons] at found
      cases control : Statement.classify first with
      | control flow bodies =>
        -- the body was read from a script among the children, and its blocks from that script's
        rw [control] at found read
        cases entered : bodies[b]? with
        | none => simp [statement?, entered] at found
        | some body =>
          have listed := List.mem_of_getElem? entered
          rw [show bodies = _ from read, Script.bodies_eq, List.mem_map] at listed
          obtain ⟨script, inside, rfl⟩ := listed
          rw [statement?_inside b p _ flow _ (by rw [body?_control, entered]; rfl),
            Script.statements_ofElement, Script.blocks_eq] at found
          obtain ⟨top, below, node, held, tagged, source⟩ :=
            ih _ (fun node kept => beq_iff_eq.mp (List.mem_filter.mp kept).2) found
          exact ⟨first, List.mem_cons_self, node,
            .inside (List.mem_filter.mp inside).1 (.inside (List.mem_filter.mp below).1 held),
            tagged, source⟩
      | _ => simp [control, statement?, body?] at found

theorem Script.exists_block {e : Element} {p : Place} {s : Statement}
    (found : p.statement? (Script.ofElement e).statements = some s) :
    ∃ node, e.Holds node ∧ node.tag = "block" ∧ s.ReadFrom node := by
  rw [Script.statements_ofElement, Script.blocks_eq] at found
  obtain ⟨top, listed, node, held, tagged, source⟩ :=
    p.exists_block _ (fun node kept => beq_iff_eq.mp (List.mem_filter.mp kept).2) found
  exact ⟨node, .inside (List.mem_filter.mp listed).1 held, tagged, source⟩

end Variability
