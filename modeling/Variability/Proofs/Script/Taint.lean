import Variability.Proofs.Script.Facts
import Variability.Proofs.Script.Visibility

/-! The meaning of taint and of the highest level. A variable may hold code at a
place when a visible statement assigns code to it, and counts as edited when a
visible statement edits it where it may hold code already. The level of a new
definition follows from these two and from its value. -/
namespace Variability
namespace Place

def HoldsCode (level : List Statement) (m : Place) (v : String) : Prop :=
  ∃ (a : Place) (value : Element), a.Visible m ∧
    a.statement? level = some (.assign v value) ∧ (Facts.ofElement value).isCode = true

/-- A visible statement edits the variable, which may hold code there. -/
def HoldsEdited (level : List Statement) (m : Place) (v : String) : Prop :=
  ∃ a : Place, a.Visible m ∧
    a.statement? level = some (.editList (some v)) ∧ a.HoldsCode level v

/-- The value takes code apart or puts it together: it reads a variable that may
hold code and joins, splits or reads an edited one, or it is code and joins. -/
def Rebuilds (level : List Statement) (m : Place) (value : Element) : Prop :=
  ((∃ v ∈ variableReads value, m.HoldsCode level v) ∧
      ((Facts.ofElement value).joins = true ∨ (Facts.ofElement value).splitsBlocks = true ∨
        ∃ v ∈ variableReads value, m.HoldsEdited level v)) ∨
    ((Facts.ofElement value).isCode = true ∧ (Facts.ofElement value).joins = true)

end Place

theorem tainted_remembered (isFeature : String → Bool) (v : String) :
    Remembered isFeature (fun scope => v ∈ scope.tainted)
      (fun s _ => ∃ value, s = .assign v value ∧ (Facts.ofElement value).isCode = true) where
  nested _ _ := Iff.rfl
  absorb _ _ := Std.TreeSet.mem_union_iff
  control _ _ _ := by simp
  simple s scope plain := by
    cases s with
    | assign name value =>
      rw [Statement.run]
      by_cases code : (Facts.ofElement value).isCode = true
      · rw [if_pos code, Scope.taint, NameSet.mem_insert]
        simp [code, and_assoc]
      · rw [if_neg code]
        simp [code, and_assoc]
    | editList target =>
      cases target with
      | none => simp [Statement.run]
      | some name =>
        by_cases held : name ∈ scope.tainted <;> simp [Statement.run, Scope.markMutated, held]
    | control flow bodies => exact (plain flow bodies rfl).elim
    | _ => simp [Statement.run, Scope.bind]

theorem mutated_remembered (isFeature : String → Bool) (v : String) :
    Remembered isFeature (fun scope => v ∈ scope.mutated)
      (fun s scope => s = .editList (some v) ∧ v ∈ scope.tainted) where
  nested _ _ := Iff.rfl
  absorb _ _ := Std.TreeSet.mem_union_iff
  control _ _ _ := by simp
  simple s scope plain := by
    cases s with
    | assign name value =>
      cases code : (Facts.ofElement value).isCode <;> simp [Statement.run, code, Scope.taint]
    | editList target =>
      cases target with
      | none => simp [Statement.run]
      | some name =>
        simp only [Statement.run, Option.elim_some, Scope.markMutated,
          Std.TreeSet.contains_iff_mem]
        by_cases held : name ∈ scope.tainted
        · rw [if_pos held, NameSet.mem_insert]
          simp only [Statement.editList.injEq, Option.some.injEq]
          constructor
          · rintro (known | rfl)
            · exact .inl known
            · exact .inr ⟨rfl, held⟩
          · exact Or.imp_right And.left
        · rw [if_neg held]
          simp only [Statement.editList.injEq, Option.some.injEq]
          constructor
          · exact .inl
          · rintro (known | ⟨rfl, other⟩)
            · exact known
            · exact (held other).elim
    | control flow bodies => exact (plain flow bodies rfl).elim
    | _ => simp [Statement.run, Scope.bind]

namespace Place

@[simp] theorem mem_tainted_iff (isFeature : String → Bool) (level : List Statement) (m : Place)
    (v : String) : v ∈ (m.scope isFeature level {}).tainted ↔ m.HoldsCode level v := by
  rw [(tainted_remembered isFeature v).scope_iff]
  constructor
  · rintro (known | ⟨a, s, visible, found, value, rfl, code⟩)
    · exact (Std.TreeSet.not_mem_emptyc known).elim
    · exact ⟨a, value, visible, found, code⟩
  · rintro ⟨a, value, visible, found, code⟩
    exact .inr ⟨a, _, visible, found, value, rfl, code⟩

@[simp] theorem mem_mutated_iff (isFeature : String → Bool) (level : List Statement) (m : Place)
    (v : String) : v ∈ (m.scope isFeature level {}).mutated ↔ m.HoldsEdited level v := by
  rw [(mutated_remembered isFeature v).scope_iff]
  constructor
  · rintro (known | ⟨a, s, visible, found, rfl, held⟩)
    · exact (Std.TreeSet.not_mem_emptyc known).elim
    · exact ⟨a, visible, found, (mem_tainted_iff isFeature level a v).mp held⟩
  · rintro ⟨a, visible, found, held⟩
    exact .inr ⟨a, _, visible, found, rfl, (mem_tainted_iff isFeature level a v).mpr held⟩

end Place

theorem Evidence.isPipeline_gather_iff (scope : Scope) (value : Element) :
    (Evidence.gather scope value).isPipeline = true ↔
      ((∃ v ∈ variableReads value, v ∈ scope.tainted) ∧
          ((Facts.ofElement value).joins = true ∨ (Facts.ofElement value).splitsBlocks = true ∨
            ∃ v ∈ variableReads value, v ∈ scope.mutated)) ∨
        ((Facts.ofElement value).isCode = true ∧ (Facts.ofElement value).joins = true) := by
  simp only [Evidence.gather, Evidence.isPipeline, Bool.or_eq_true, Bool.and_eq_true,
    Facts.reads_ofElement_iff, or_assoc]

theorem Place.isPipeline_gather_iff (isFeature : String → Bool) (level : List Statement)
    (m : Place) (value : Element) :
    (Evidence.gather (m.scope isFeature level {}) value).isPipeline = true ↔
      m.Rebuilds level value := by
  simp only [Evidence.isPipeline_gather_iff, Place.mem_tainted_iff, Place.mem_mutated_iff,
    Place.Rebuilds]

theorem Mutation.level_ofSetAttribute_definition (scope : Scope) (target value : Element) :
    (Mutation.ofSetAttribute scope "definition" target value).level =
      if (Evidence.gather scope value).isPipeline then .pipeline else .definition := rfl

/-- Taint and level of every new definition that a script makes, and what one
branch of a statement lets others see. -/
theorem Script.definition_level (isFeature : String → Bool) (script : Script) (m : Place)
    (target value : Element)
    (reached : m.statement? script.statements = some (.setAttribute "definition" target value)) :
    let scope := m.scope isFeature script.statements {}
    let change := Mutation.ofSetAttribute scope "definition" target value
    script.mutations isFeature =
        script.places.filterMap (Place.change? isFeature script.statements {}) ∧
      m ∈ script.places ∧ Place.change? isFeature script.statements {} m = some change ∧
      (∀ v, v ∈ scope.tainted ↔ m.HoldsCode script.statements v) ∧
      (∀ v, v ∈ scope.mutated ↔ m.HoldsEdited script.statements v) ∧
      (change.level = .pipeline ↔ m.Rebuilds script.statements value) ∧
      (change.level = .definition ↔ ¬ m.Rebuilds script.statements value) ∧
      (∀ (c : Place) (b d : Nat) (p q : Place), b ≠ d → ¬ (c.into b p).Visible (c.into d q)) ∧
      (∀ (c : Place) (b : Nat) (p q : Place), (c.into b p).Visible (c.past q)) := by
  intro scope change
  have level : change.level = _ := Mutation.level_ofSetAttribute_definition scope target value
  have rebuilds : (Evidence.gather scope value).isPipeline = true ↔
      m.Rebuilds script.statements value :=
    Place.isPipeline_gather_iff isFeature script.statements m value
  obtain ⟨member, made⟩ := Script.change?_of_reached isFeature script m reached
  refine ⟨Script.mutations_eq isFeature script, member, made, ?_, ?_, ?_, ?_, ?_, ?_⟩
  · exact Place.mem_tainted_iff isFeature script.statements m
  · exact Place.mem_mutated_iff isFeature script.statements m
  · rw [level, ← rebuilds]
    cases (Evidence.gather scope value).isPipeline <;> simp
  · rw [level, ← rebuilds]
    cases (Evidence.gather scope value).isPipeline <;> simp
  · exact fun c b d p q other => Place.not_visible_other_body c other p q
  · exact Place.visible_into_past

theorem Script.definition_level_after_branch :
    let pieces : Element := ⟨"block", [("s", "reportTextSplit")], "",
      [⟨"l", [], "", [⟨"option", [], "blocks", []⟩]⟩]⟩
    let joined : Element := ⟨"block", [("s", "reportJoinWords")], "",
      [⟨"block", [("var", "tree")], "", []⟩]⟩
    let script : Script := .mk default
      [.control ⟨"doIf", .conditional, none⟩ [.mk default [.assign "tree" pieces]],
        .setAttribute "definition" default joined]
    let m : Place := .next .here
    m.statement? script.statements = some (.setAttribute "definition" default joined) ∧
      (Mutation.ofSetAttribute (m.scope (fun _ => false) script.statements {})
        "definition" default joined).level = .pipeline := by
  intro pieces joined script m
  have levels := Script.definition_level (fun _ => false) script m default joined rfl
  refine ⟨rfl, levels.2.2.2.2.2.1.mpr (.inl ⟨⟨"tree", ?_, ?_⟩, .inl (by decide +kernel)⟩)⟩
  · have reads : variableReads joined = ["tree"] := by decide +kernel
    rw [reads]
    exact List.mem_singleton.mpr rfl
  · exact ⟨.inside 0 .here, pieces, .within 0 .here .here, rfl, by decide +kernel⟩

end Variability
