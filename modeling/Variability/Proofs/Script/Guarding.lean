import Variability.Proofs.Analysis.Event
import Variability.Proofs.Feature.Configured
import Variability.Proofs.Script.Scopes
import Variability.Proofs.Script.Source
import Variability.Proofs.Script.Visibility

/-! Which changes a feature guards. Bodies are read in scopes of their own, so the guards
at a place are those of the conditionals around it and no others: guards are never
removed, the scopes that hold them are. -/
namespace Variability

@[simp] theorem Script.guards_runBranches (isFeature : String → Bool) (base : Scope)
    (bodies : List Script) (scope : Scope) :
    (Script.runBranches isFeature base bodies scope).1.guards = scope.guards := by
  induction bodies generalizing scope with
  | nil => rfl
  | cons body rest ih =>
    simp only [Script.runBranches]
    rw [ih]
    rfl

@[simp] theorem Statement.guards_run (isFeature : String → Bool) (s : Statement) (scope : Scope) :
    (s.run isFeature scope).1.guards = scope.guards := by
  cases s with
  | assign name value =>
    rw [Statement.run]
    split <;> rfl
  | editList target =>
    cases target with
    | none => rfl
    | some name => exact scope.guards_markMutated name
  | control flow bodies => exact Script.guards_runBranches isFeature _ bodies scope
  | _ => rfl

namespace Place

/-- The place `m` is in a body of the statement at `c`. -/
def Around (c m : Place) : Prop := ∃ b q, m = c.into b q

@[simp] theorem not_around_here (c : Place) : ¬ c.Around .here := by
  rintro ⟨b, q, same⟩
  cases c <;> cases same

@[simp]
theorem around_next_iff (c m : Place) : c.Around (.next m) ↔ ∃ d, c = .next d ∧ d.Around m := by
  constructor
  · rintro ⟨b, q, same⟩
    cases c with
    | next d => exact ⟨d, rfl, b, q, Place.next.inj same⟩
    | _ => cases same
  · rintro ⟨d, rfl, b, q, rfl⟩
    exact ⟨b, q, rfl⟩

@[simp] theorem around_inside_iff (c m : Place) (b : Nat) :
    c.Around (.inside b m) ↔ c = .here ∨ ∃ d, c = .inside b d ∧ d.Around m := by
  constructor
  · rintro ⟨k, q, same⟩
    cases c with
    | here => exact .inl rfl
    | next d => cases same
    | inside j d =>
      obtain ⟨rfl, rest⟩ := Place.inside.inj same
      exact .inr ⟨d, rfl, k, q, rest⟩
  · rintro (rfl | ⟨d, rfl, k, q, rfl⟩)
    · exact ⟨b, m, rfl⟩
    · exact ⟨k, q, rfl⟩

@[simp] theorem not_around_past (c q : Place) : ¬ c.Around (c.past q) := by
  induction c with
  | here =>
    intro around
    obtain ⟨d, same, _⟩ := (around_next_iff _ _).mp around
    cases same
  | next c ih =>
    intro around
    obtain ⟨d, same, around⟩ := (around_next_iff _ _).mp around
    cases same
    exact ih around
  | inside k c ih =>
    intro around
    rcases (around_inside_iff _ _ _).mp around with same | ⟨d, same, around⟩
    · cases same
    · cases same
      exact ih around

private theorem exists_of_body? {b : Nat} {level : List Statement} {flow : ControlFlow}
    {body : Script}
    (entered : body? b level = some (flow, body)) :
    ∃ bodies rest, level = .control flow bodies :: rest := by
  unfold body? at entered
  split at entered
  · rename_i head bodies rest
    obtain ⟨_, _, same⟩ := Option.map_eq_some_iff.mp entered
    cases same
    exact ⟨bodies, rest, rfl⟩
  · cases entered

theorem isFeatureGuarded_scope_iff (isFeature : String → Bool) (m : Place)
    (level : List Statement) (scope : Scope) {s : Statement}
    (reached : m.statement? level = some s) :
    (m.scope isFeature level scope).isFeatureGuarded = true ↔
      scope.isFeatureGuarded = true ∨ ∃ (c : Place) (flow : ControlFlow) (bodies : List Script),
        c.Around m ∧ c.statement? level = some (.control flow bodies) ∧
          (flow.guard? isFeature).any Guard.isFeatureGuard = true := by
  induction m generalizing level scope with
  | here => simp [Place.scope]
  | next m ih =>
    cases level with
    | nil => simp at reached
    | cons first rest =>
      have same : (first.run isFeature scope).1.isFeatureGuarded = scope.isFeatureGuarded :=
        congrArg (List.any · Guard.isFeatureGuard) (first.guards_run isFeature scope)
      rw [scope_next, ih rest _ reached, same]
      apply or_congr_right
      constructor
      · rintro ⟨c, flow, bodies, around, found, guards⟩
        exact ⟨.next c, flow, bodies, (around_next_iff _ _).mpr ⟨c, rfl, around⟩, found, guards⟩
      · rintro ⟨c, flow, bodies, around, found, guards⟩
        obtain ⟨d, rfl, further⟩ := (around_next_iff _ _).mp around
        exact ⟨d, flow, bodies, further, found, guards⟩
  | inside b m ih =>
    cases entered : body? b level with
    | none => simp [statement?, entered] at reached
    | some head =>
      obtain ⟨flow, body⟩ := head
      rw [statement?_inside b m level flow body entered] at reached
      rw [scope_inside isFeature b m level flow body entered, ih body.statements _ reached,
        Scope.isFeatureGuarded_nested, Bool.or_eq_true, or_assoc]
      obtain ⟨bodies, rest, first⟩ := exists_of_body? entered
      -- the guard that is new here is that of the statement itself, at `.here`
      apply or_congr_right
      constructor
      · rintro (guards | ⟨c, inner, others, around, found, guards⟩)
        · refine ⟨.here, flow, bodies, (around_inside_iff _ _ _).mpr (.inl rfl), ?_, guards⟩
          rw [first, statement?_here]
        · refine ⟨.inside b c, inner, others,
            (around_inside_iff _ _ _).mpr (.inr ⟨c, rfl, around⟩), ?_, guards⟩
          rwa [statement?_inside b c level flow body entered]
      · rintro ⟨c, inner, others, around, found, guards⟩
        rcases (around_inside_iff _ _ _).mp around with rfl | ⟨d, rfl, further⟩
        · rw [first, statement?_here] at found
          cases found
          exact .inl guards
        · rw [statement?_inside b d level flow body entered] at found
          exact .inr ⟨d, inner, others, further, found, guards⟩

private theorem exists_control_of_around {c m : Place} (around : c.Around m)
    {level : List Statement}
    {s : Statement} (reached : m.statement? level = some s) :
    ∃ flow bodies, c.statement? level = some (.control flow bodies) := by
  obtain ⟨b, q, rfl⟩ := around
  induction c generalizing level with
  | here =>
    obtain ⟨⟨flow, body⟩, entered, _⟩ := Option.bind_eq_some_iff.mp reached
    obtain ⟨bodies, rest, rfl⟩ := exists_of_body? entered
    exact ⟨flow, bodies, rfl⟩
  | next c ih => exact ih reached
  | inside k c ih =>
    obtain ⟨⟨flow, body⟩, entered, reached⟩ := Option.bind_eq_some_iff.mp reached
    obtain ⟨inner, bodies, found⟩ := ih reached
    exact ⟨inner, bodies, (statement?_inside k c level flow body entered).trans found⟩

/-- The block that the statement at the place was read from; `nodes` are the blocks that
the list was read from. -/
def block? : Place → List Element → Option Element
  | .here, nodes => nodes.head?
  | .next p, nodes => p.block? nodes.tail
  | .inside b p, nodes =>
    nodes.head?.bind fun node => (node.childrenNamed "script")[b]?.bind fun body =>
      p.block? (body.childrenNamed "block")

private theorem exists_block?_eq (p : Place) (nodes : List Element) {s : Statement}
    (found : p.statement? (nodes.map Statement.classify) = some s) :
    ∃ node, p.block? nodes = some node ∧ Statement.classify node = s := by
  induction p generalizing nodes with
  | here =>
    cases nodes with
    | nil => simp at found
    | cons first rest => exact ⟨first, rfl, Option.some.inj found⟩
  | next p ih =>
    cases nodes with
    | nil => simp at found
    | cons first rest => exact ih rest found
  | inside b p ih =>
    cases nodes with
    | nil => simp at found
    | cons first rest =>
      obtain ⟨⟨flow, body⟩, entered, found⟩ := Option.bind_eq_some_iff.mp found
      obtain ⟨bodies, _, control⟩ := exists_of_body? entered
      rw [List.map_cons, List.cons.injEq] at control
      have read := Statement.readFrom_classify first
      rw [control.1] at read
      rw [List.map_cons, control.1, body?_control, show bodies = _ from read, Script.bodies_eq,
        List.getElem?_map, Option.map_map] at entered
      obtain ⟨script, listed, same⟩ := Option.map_eq_some_iff.mp entered
      cases same
      change p.statement? (Script.ofElement script).statements = some s at found
      rw [Script.statements_ofElement, Script.blocks_eq] at found
      obtain ⟨node, reached, classified⟩ := ih _ found
      refine ⟨node, ?_, classified⟩
      rw [block?, List.head?_cons, Option.bind_some, Element.childrenNamed, listed,
        Option.bind_some]
      exact reached

end Place

private theorem Statement.flow?_of_classify {node : Element} {flow : ControlFlow}
    {bodies : List Script}
    (control : Statement.classify node = .control flow bodies) :
    Statement.flow? node = some flow := by
  cases node with
  | mk tag attributes text children =>
    rw [classify] at control
    split at control
    · unfold ofDefine at control
      split at control
      · split at control <;> cases control
      · cases control
    · unfold ofAssign at control
      split at control
      · split at control <;> cases control
      · cases control
    · unfold ofSetAttribute at control
      split at control <;> cases control
    · split at control
      · cases control
      · split at control
        · rename_i found
          cases control
          exact found
        · cases control

/-- A conditional whose condition reads one of the variables. The condition is the first
block among the children, so a literal is none. -/
def Element.TestsFeature (names : List String) (node : Element) : Prop :=
  node.selector ∈ Vocabulary.conditionals ∧
    ∃ condition, node.blockLikeChild? = some condition ∧ ∃ name ∈ names, condition.Reads name

theorem Statement.head_of_flow? {node : Element} {flow : ControlFlow}
    (found : Statement.flow? node = some flow) :
    (flow.kind = .conditional ↔ node.selector ∈ Vocabulary.conditionals) ∧
      flow.condition = node.blockLikeChild? := by
  have listed : node.selector ∈ Vocabulary.conditionals ↔
      Vocabulary.isConditional node.selector = true := List.contains_iff_mem.symm
  rw [listed]
  simp only [Statement.flow?] at found
  split at found
  case isTrue conditional =>
    cases found
    exact ⟨iff_of_true rfl conditional, rfl⟩
  case isFalse other =>
    split at found
    · cases found
      exact ⟨iff_of_false (by simp) other, rfl⟩
    · cases found

theorem ControlFlow.isFeatureGuard_iff (isFeature : String → Bool) (flow : ControlFlow) :
    (flow.guard? isFeature).any Guard.isFeatureGuard = true ↔
      flow.kind = .conditional ∧ ∃ condition, flow.condition = some condition ∧
        ∃ name ∈ variableReads condition, isFeature name = true := by
  unfold guard?
  cases flow.kind with
  | loop => simp
  | conditional =>
    cases flow.condition with
    | none => simp [Guard.isFeatureGuard]
    | some condition =>
      have features : ∀ reads : List String, (reads.filter isFeature).eraseDups.isEmpty = false ↔
          ∃ name ∈ reads, isFeature name = true := by
        intro reads
        rw [List.isEmpty_eq_false_iff_exists_mem]
        simp
      simp [Guard.isFeatureGuard, features]

theorem Element.testsFeature_iff (root : Element) {node : Element} {flow : ControlFlow}
    (found : Statement.flow? node = some flow) :
    (flow.guard? (Configured.collect root).contains).any Guard.isFeatureGuard = true ↔
      node.TestsFeature (Configured.collect root).names := by
  obtain ⟨kind, condition⟩ := Statement.head_of_flow? found
  rw [ControlFlow.isFeatureGuard_iff, kind, condition, TestsFeature]
  have reads : ∀ condition : Element,
      (∃ name ∈ variableReads condition, (Configured.collect root).contains name = true) ↔
        ∃ name ∈ (Configured.collect root).names, condition.Reads name := by
    intro condition
    apply exists_congr
    intro name
    rw [← Configured.mem_readBy_iff, Configured.readBy, List.mem_filter]
  simp only [reads]

private theorem Element.not_testsFeature_of_loop (names : List String) {node : Element}
    (loop : node.selector ∈ Vocabulary.loops) : ¬ node.TestsFeature names := by
  rintro ⟨conditional, _⟩
  have apart : ∀ selector ∈ Vocabulary.loops, selector ∉ Vocabulary.conditionals := by decide
  exact apart _ loop conditional

theorem Element.testsFeature_without_literals (names : List String) (node : Element) :
    Element.TestsFeature names { node with children := node.children.filter (·.tag != "l") } ↔
      node.TestsFeature names := by
  have first : ({ node with children := node.children.filter (·.tag != "l") } :
      Element).blockLikeChild? = node.blockLikeChild? := by
    rw [blockLikeChild?, List.find?_filter, blockLikeChild?]
    congr 1
    funext child
    by_cases literal : child.tag = "l" <;> simp [isBlockLike, literal, beq_eq_decide]
  rw [TestsFeature, first]
  rfl

theorem Script.isFeatureGuarded_scope_iff (root e : Element) (m : Place) {s : Statement}
    (reached : m.statement? (Script.ofElement e).statements = some s) :
    (m.scope (Configured.collect root).contains
        (Script.ofElement e).statements {}).isFeatureGuarded = true ↔
      ∃ (c : Place) (node : Element), c.Around m ∧
        c.block? (e.childrenNamed "block") = some node ∧
          node.TestsFeature (Configured.collect root).names := by
  have level : (Script.ofElement e).statements =
      (e.childrenNamed "block").map Statement.classify := by
    rw [Script.statements_ofElement, Script.blocks_eq]
    rfl
  rw [level] at reached ⊢
  rw [Place.isFeatureGuarded_scope_iff _ m _ {} reached]
  constructor
  · rintro (start | ⟨c, flow, bodies, around, found, guards⟩)
    · cases start
    · obtain ⟨node, block, classified⟩ := c.exists_block?_eq _ found
      have flows := Statement.flow?_of_classify classified
      exact ⟨c, node, around, block, (Element.testsFeature_iff root flows).mp guards⟩
  · rintro ⟨c, node, around, block, tests⟩
    obtain ⟨flow, bodies, found⟩ := Place.exists_control_of_around around reached
    obtain ⟨other, same, classified⟩ := c.exists_block?_eq _ found
    rw [block] at same
    cases same
    have flows := Statement.flow?_of_classify classified
    exact .inr ⟨c, flow, bodies, around, found, (Element.testsFeature_iff root flows).mpr tests⟩

theorem Mutation.isFeatureGuarded_ofSetAttribute (scope : Scope) (attr : String)
    (target value : Element) :
    (ofSetAttribute scope attr target value).isFeatureGuarded = true ↔
      attr = "definition" ∧ scope.isFeatureGuarded = true := by
  by_cases kind : attr = "definition" <;> simp [ofSetAttribute, isFeatureGuarded, kind]

/-- A change is guarded by a feature exactly when it is a new definition in a body of a
conditional on a configured variable. -/
theorem Script.isFeatureGuarded_iff (root e : Element) (m : Place) (attr : String)
    (target value : Element)
    (reached : m.statement? (Script.ofElement e).statements =
      some (.setAttribute attr target value)) :
    let configured := Configured.collect root
    let script := Script.ofElement e
    let scope := m.scope configured.contains script.statements {}
    let change := Mutation.ofSetAttribute scope attr target value
    script.mutations configured.contains =
        script.places.filterMap (Place.change? configured.contains script.statements {}) ∧
      m ∈ script.places ∧
      Place.change? configured.contains script.statements {} m = some change ∧
      (change.isFeatureGuarded = true ↔ attr = "definition" ∧ ∃ (c : Place) (node : Element),
        c.Around m ∧ c.block? (e.childrenNamed "block") = some node ∧
          node.TestsFeature configured.names) ∧
      (∀ node : Element, node.selector ∈ Vocabulary.loops →
        ¬ node.TestsFeature configured.names) ∧
      (∀ node : Element,
        Element.TestsFeature configured.names
            { node with children := node.children.filter (·.tag != "l") } ↔
          node.TestsFeature configured.names) ∧
      (∀ c q : Place, ¬ c.Around (c.past q)) ∧
      (∀ (s : Survey) (visit : Visit),
        (s.visit visit).blocks =
            (visit.events s.configured.contains).foldl Event.count s.blocks ∧
          (s.visit visit).unknown = s.unknown ++
            (Event.listed s.settings (visit.events s.configured.contains)).toArray) := by
  intro configured script scope change
  obtain ⟨member, made⟩ := Script.change?_of_reached configured.contains script m reached
  refine ⟨Script.mutations_eq configured.contains script, member, made, ?_, ?_, ?_, ?_, ?_⟩
  · rw [Mutation.isFeatureGuarded_ofSetAttribute,
      Script.isFeatureGuarded_scope_iff root e m reached]
  · exact fun node => Element.not_testsFeature_of_loop configured.names
  · exact Element.testsFeature_without_literals configured.names
  · exact Place.not_around_past
  · exact fun s visit => ⟨Survey.visit_blocks s visit, Survey.visit_unknown s visit⟩

theorem Script.isFeatureGuarded_in_loop :
    let slider : Element := ⟨"watcher", [("style", "slider"), ("var", "mode")], "", []⟩
    let root : Element := ⟨"project", [], "", [slider]⟩
    let chosen : Element := ⟨"l", [], "", [⟨"option", [], "definition", []⟩]⟩
    let target : Element := ⟨"custom-block", [("s", "jump")], "", []⟩
    let value : Element := ⟨"block", [("s", "reportJoinWords")], "", []⟩
    let set : Element := ⟨"block", [("s", "doSetBlockAttribute")], "", [chosen, target, value]⟩
    let loop : Element := ⟨"block", [("s", "doForever")], "", [⟨"script", [], "", [set]⟩]⟩
    let test : Element := ⟨"block", [("s", "doIf")], "",
      [⟨"block", [("var", "mode")], "", []⟩, ⟨"script", [], "", [loop]⟩]⟩
    let e : Element := ⟨"script", [], "", [test]⟩
    let m : Place := .inside 0 (.inside 0 .here)
    m.statement? (Script.ofElement e).statements =
        some (.setAttribute "definition" target value) ∧
      (Mutation.ofSetAttribute
        (m.scope (Configured.collect root).contains (Script.ofElement e).statements {})
        "definition" target value).isFeatureGuarded = true := by
  intro slider root chosen target value set loop test e m
  have reached : m.statement? (Script.ofElement e).statements =
      some (.setAttribute "definition" target value) := by
    dsimp only [m, e, test, loop, set, chosen, target, value]
    rfl
  have known : "mode" ∈ (Configured.collect root).names := by
    have watched : slider ∈ Outline.watchers root := by
      rw [Outline.watchers, Element.descendantsNamed, List.mem_filter,
        Element.mem_descendants_iff]
      exact ⟨Element.holds_of_mem_children List.mem_cons_self, rfl⟩
    rw [Configured.mem_names_iff, Configured.mem_collect_iff]
    exact .inl ⟨slider, watched, by decide⟩
  have guarded := Script.isFeatureGuarded_iff root e m "definition" target value reached
  have conditional : test.selector ∈ Vocabulary.conditionals := by
    dsimp only [test, loop, set, chosen, target, value]
    decide
  refine ⟨reached, guarded.2.2.2.1.mpr ⟨rfl, .here, test, ⟨0, .inside 0 .here, rfl⟩, rfl, ?_⟩⟩
  exact ⟨conditional, _, rfl, "mode", known, _, .itself _, rfl, rfl⟩

end Variability
