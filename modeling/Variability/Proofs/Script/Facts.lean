import Mathlib.Data.List.Infix
import Variability.Proofs.Element.Descendants

/-! The one-pass facts of an expression, remark by remark. A remark is made by a single
element, and the facts have those that are made somewhere in the expression; the
variables among them are the list of its reads. -/
namespace Variability

private theorem NameSet.any_eq_any_toList (names : NameSet) (p : String → Bool) :
    Std.TreeSet.any names p = names.toList.any p := by
  have loop : Std.TreeSet.any names p = (Id.run do
      for v in names do
        if p v then return true
      return false) := rfl
  rw [loop, Std.TreeSet.forIn_eq_forIn_toList]
  generalize names.toList = listed
  induction listed with
  | nil => rfl
  | cons v rest ih =>
    simp only [List.forIn_cons, List.any_cons]
    cases p v with
    | true => rfl
    | false => simpa using ih

@[simp] theorem NameSet.any_iff (names : NameSet) (p : String → Bool) :
    Std.TreeSet.any names p = true ↔ ∃ v ∈ names, p v = true := by
  rw [NameSet.any_eq_any_toList, List.any_eq_true]
  constructor
  · rintro ⟨v, listed, holds⟩
    exact ⟨v, Std.TreeSet.mem_toList.mp listed, holds⟩
  · rintro ⟨v, known, holds⟩
    exact ⟨v, Std.TreeSet.mem_toList.mpr known, holds⟩

@[simp] theorem NameSet.mem_insert (names : NameSet) (v w : String) :
    v ∈ Std.TreeSet.insert names w ↔ v ∈ names ∨ w = v := by
  rw [Std.TreeSet.mem_insert, Std.LawfulEqCmp.compare_eq_iff_eq, or_comm]

namespace Vocabulary

@[simp]
theorem occursIn_iff (word text : List Char) : occursIn word text = true ↔ word <:+: text := by
  induction text with
  | nil => rw [occursIn, List.isEmpty_iff, List.infix_nil]
  | cons c rest ih =>
    rw [occursIn, Bool.or_eq_true, List.isPrefixOf_iff_prefix, ih, List.infix_cons_iff]

def Mentions (name : String) : Prop :=
  ∃ word ∈ codeWords, word.toList <:+: (Text.lowerCase name).toList

@[simp] theorem mentionsCode_iff (name : String) : mentionsCode name = true ↔ Mentions name := by
  simp only [mentionsCode, Mentions, List.any_eq_true, occursIn_iff]

end Vocabulary

/-- Something that a single element tells about the code that it may hold. -/
inductive Remark where
  | reads (name : String)
  | joins
  | splitsBlocks
  | callsLibrary

@[simp] theorem splitsByBlocks_iff (split : Element) :
    splitsByBlocks split = true ↔
      ∃ child ∈ split.children, child.tag = "l" ∧ child.optionText = "blocks" := by
  simp only [splitsByBlocks, Element.childrenNamed, List.any_filter, List.any_eq_true,
    Bool.and_eq_true, beq_iff_eq]

def Element.Makes (e : Element) : Remark → Prop
  | .reads name => e.tag = "block" ∧ e.variableName? = some name
  | .joins => e.tag = "block" ∧ e.selector = "reportJoinWords"
  | .splitsBlocks => e.tag = "block" ∧ e.selector = "reportTextSplit" ∧
      ∃ child ∈ e.children, child.tag = "l" ∧ child.optionText = "blocks"
  | .callsLibrary => e.tag = "custom-block" ∧ Vocabulary.Mentions e.selector

namespace Facts

def Has (facts : Facts) : Remark → Prop
  | .reads name => name ∈ facts.varNames
  | .joins => facts.joins = true
  | .splitsBlocks => facts.splitsBlocks = true
  | .callsLibrary => facts.callsLibrary = true

private theorem not_has_empty (remark : Remark) : ¬ Has {} remark := by
  cases remark <;> simp [Has]

@[simp] theorem has_note_iff (facts : Facts) (node : Element) (remark : Remark) :
    (facts.note node).Has remark ↔ facts.Has remark ∨ node.Makes remark := by
  unfold note
  by_cases block : node.tag = "block"
  · rw [if_pos (beq_iff_eq.mpr block)]
    cases remark with
    | reads name =>
      cases found : node.variableName? with
      | none => simp [Has, Element.Makes, found]
      | some other => simp [Has, Element.Makes, block, found, or_comm]
    | joins => simp [Has, Element.Makes, block]
    | splitsBlocks => simp [Has, Element.Makes, block]
    | callsLibrary => simp [Has, Element.Makes, block]
  · rw [if_neg (by simpa using block)]
    by_cases custom : node.tag = "custom-block"
    · cases remark <;> simp [Has, Element.Makes, custom]
    · cases remark <;> simp [Has, Element.Makes, block, custom]

@[simp] theorem has_foldl_note_iff (nodes : List Element) (facts : Facts) (remark : Remark) :
    (nodes.foldl note facts).Has remark ↔
      facts.Has remark ∨ ∃ node ∈ nodes, node.Makes remark := by
  induction nodes generalizing facts with
  | nil => simp
  | cons node rest ih =>
    rw [List.foldl_cons, ih, has_note_iff]
    simp only [List.mem_cons, exists_eq_or_imp, or_assoc]

theorem has_ofElement_iff (expr : Element) (remark : Remark) :
    (ofElement expr).Has remark ↔ ∃ node, expr.Holds node ∧ node.Makes remark := by
  rw [ofElement, has_foldl_note_iff]
  simp only [not_has_empty, false_or, Element.mem_descendants_iff]

theorem has_ofElement_iff_children (expr : Element) (remark : Remark) :
    (ofElement expr).Has remark ↔
      expr.Makes remark ∨ ∃ child ∈ expr.children, (ofElement child).Has remark := by
  simp only [has_ofElement_iff, Element.holds_iff expr, or_and_right, exists_or, exists_eq_left]
  apply or_congr_right
  exact ⟨fun ⟨node, ⟨child, listed, held⟩, makes⟩ => ⟨child, listed, node, held, makes⟩,
    fun ⟨child, listed, node, held, makes⟩ => ⟨node, ⟨child, listed, held⟩, makes⟩⟩

@[simp] theorem mem_varNames_ofElement (expr : Element) (v : String) :
    v ∈ (ofElement expr).varNames ↔ v ∈ variableReads expr := by
  have remarked := has_ofElement_iff expr (.reads v)
  rw [variableReads, List.mem_filterMap]
  simp only [Element.descendantsNamed, List.mem_filter, Element.mem_descendants_iff, beq_iff_eq,
    and_assoc]
  exact remarked

/-- The search does not depend on which of the two sets is the smaller. -/
@[simp] theorem reads_iff (facts : Facts) (names : NameSet) :
    facts.reads names = true ↔ ∃ v, v ∈ facts.varNames ∧ v ∈ names := by
  unfold reads
  split
  · simp only [NameSet.any_iff, Std.TreeSet.contains_iff_mem]
  · simp only [NameSet.any_iff, Std.TreeSet.contains_iff_mem, and_comm]

@[simp] theorem reads_ofElement_iff (expr : Element) (names : NameSet) :
    (ofElement expr).reads names = true ↔ ∃ v ∈ variableReads expr, v ∈ names := by
  simp only [reads_iff, mem_varNames_ofElement]

/-- The facts of an expression are what its elements say, each by itself, so they are put
together from what the expression says and the facts of its children. -/
theorem ofOption_pointwise (expr : Element) :
    let facts := ofOption (some expr)
    (∀ v, v ∈ facts.varNames ↔ v ∈ variableReads expr) ∧
      (facts.joins = true ↔ ∃ node, expr.Holds node ∧
        node.tag = "block" ∧ node.selector = "reportJoinWords") ∧
      (facts.splitsBlocks = true ↔ ∃ node, expr.Holds node ∧
        node.tag = "block" ∧ node.selector = "reportTextSplit" ∧
          ∃ child ∈ node.children, child.tag = "l" ∧ child.optionText = "blocks") ∧
      (facts.callsLibrary = true ↔ ∃ node, expr.Holds node ∧
        node.tag = "custom-block" ∧ Vocabulary.Mentions node.selector) ∧
      (∀ remark, facts.Has remark ↔
        expr.Makes remark ∨ ∃ child ∈ expr.children, (ofOption (some child)).Has remark) ∧
      ∀ (known : Facts) (names : NameSet),
        known.reads names = true ↔ ∃ v, v ∈ known.varNames ∧ v ∈ names :=
  ⟨mem_varNames_ofElement expr, has_ofElement_iff expr .joins,
    has_ofElement_iff expr .splitsBlocks, has_ofElement_iff expr .callsLibrary,
    has_ofElement_iff_children expr, reads_iff⟩

end Facts
end Variability
