import Variability.Proofs.Analysis.Event
import Variability.Proofs.Script.Scopes
import Variability.Proofs.Script.Taint

/-! Two readings of one script, the second from a scope that knows of more code. They
make the same changes one by one, none of the second is less deep, and the second
again ends in a scope that knows of more. So one more assignment of code, anywhere in
a script, takes no change away and lowers no level. -/
namespace Variability

/-- `s.Below t`: the two are alike in bindings and guards, and what `s` knows of code,
`t` knows too. -/
structure Scope.Below (s t : Scope) : Prop extends KnownTo s t where
  bindings : ∀ v : String, s.bindings[v]? = t.bindings[v]?
  guards : s.guards = t.guards

namespace Scope.Below

theorem refl (s : Scope) : s.Below s := ⟨.refl s, fun _ => rfl, rfl⟩

theorem learn {s t later : Scope} (below : s.Below t) (known : t.KnownTo later)
    (bindings : later.bindings = t.bindings) (guards : later.guards = t.guards) :
    s.Below later where
  toKnownTo := below.toKnownTo.trans known
  bindings v := by rw [bindings, below.bindings v]
  guards := by rw [guards, below.guards]

theorem bind {s t : Scope} (below : s.Below t) (name label : String) :
    (s.bind name label).Below (t.bind name label) where
  tainted := below.tainted
  mutated := below.mutated
  bindings v := by
    simp only [Scope.bind, Std.TreeMap.getElem?_insert, below.bindings v]
  guards := below.guards

theorem taint {s t : Scope} (below : s.Below t) (name : String) :
    (s.taint name).Below (t.taint name) where
  toKnownTo := below.toKnownTo.taint name
  bindings := below.bindings
  guards := below.guards

theorem markMutated {s t : Scope} (below : s.Below t) (name : String) :
    (s.markMutated name).Below (t.markMutated name) where
  toKnownTo := below.toKnownTo.markMutated name
  bindings v := by rw [bindings_markMutated, bindings_markMutated, below.bindings v]
  guards := by rw [guards_markMutated, guards_markMutated, below.guards]

theorem nested {s t : Scope} (below : s.Below t) (guard : Option Guard) :
    (s.nested guard).Below (t.nested guard) where
  tainted := below.tainted
  mutated := below.mutated
  bindings := below.bindings
  guards := by rw [Scope.nested, Scope.nested, below.guards]

theorem absorb {s t branch other : Scope} (below : s.Below t) (found : branch.Below other) :
    (s.absorb branch).Below (t.absorb other) where
  toKnownTo := below.toKnownTo.absorb found.toKnownTo
  bindings := below.bindings
  guards := below.guards

end Scope.Below

/-- The same change of the same block, the second at least as deep. -/
structure Mutation.AtMost (m n : Mutation) : Prop where
  attr : m.attr = n.attr
  resolution : m.resolution = n.resolution
  guarded : m.isFeatureGuarded = n.isFeatureGuarded
  pipeline : m.isPipeline = true → n.isPipeline = true
  level : m.level ≤ n.level

structure Event.AtMost (d e : Event) : Prop extends Mutation.AtMost d.mutation e.mutation where
  owner : d.owner = e.owner

theorem Resolution.ofElement_congr {one other : Bindings}
    (same : ∀ v : String, one[v]? = other[v]?) (target : Element) :
    Resolution.ofElement one target = Resolution.ofElement other target := by
  unfold Resolution.ofElement
  cases target.variableName? with
  | none => rfl
  | some name => simp only [same name]

theorem Mutation.AtMost.refl (m : Mutation) : m.AtMost m :=
  ⟨rfl, rfl, rfl, id, Nat.le_refl _⟩

theorem Evidence.isPipeline_gather_mono {s t : Scope} (known : s.KnownTo t) (value : Element)
    (pipeline : (Evidence.gather s value).isPipeline = true) :
    (Evidence.gather t value).isPipeline = true := by
  have reads : ∀ {few more : NameSet}, (∀ v, v ∈ few → v ∈ more) →
      (∃ v ∈ variableReads value, v ∈ few) → ∃ v ∈ variableReads value, v ∈ more := by
    rintro few more included ⟨v, read, listed⟩
    exact ⟨v, read, included v listed⟩
  rw [Evidence.isPipeline_gather_iff] at pipeline ⊢
  rcases pipeline with ⟨code, joins | splits | edited⟩ | made
  · exact .inl ⟨reads known.tainted code, .inl joins⟩
  · exact .inl ⟨reads known.tainted code, .inr (.inl splits)⟩
  · exact .inl ⟨reads known.tainted code, .inr (.inr (reads known.mutated edited))⟩
  · exact .inr made

theorem Mutation.ofSetAttribute_atMost {s t : Scope} (below : s.Below t) (attr : String)
    (target value : Element) :
    (ofSetAttribute s attr target value).AtMost (ofSetAttribute t attr target value) := by
  have resolution := Resolution.ofElement_congr below.bindings target
  by_cases kind : attr = "definition"
  · subst kind
    have pipeline := Evidence.isPipeline_gather_mono below.toKnownTo value
    refine ⟨rfl, resolution, ?_, pipeline, ?_⟩
    · exact congrArg (List.any · Guard.isFeatureGuard) below.guards
    · rw [level_ofSetAttribute_definition, level_ofSetAttribute_definition]
      by_cases deep : (Evidence.gather s value).isPipeline = true
      · rw [if_pos deep, if_pos (pipeline deep)]
        exact Nat.le_refl _
      · rw [if_neg deep]
        split <;> decide
  · -- other attributes do not depend on what is known of code
    have same : ofSetAttribute s attr target value = ofSetAttribute t attr target value := by
      simp [ofSetAttribute, kind, resolution]
    rw [same]
    exact .refl _

/-- Read from a scope below, `f` ends in a scope below and makes no deeper changes. -/
def Weaker (f g : Scope → Scope × List Mutation) : Prop :=
  ∀ s t : Scope, s.Below t →
    (f s).1.Below (g t).1 ∧ List.Forall₂ Mutation.AtMost (f s).2 (g t).2

def Script.Weakens (isFeature : String → Bool) (script other : Script) : Prop :=
  Weaker (script.run isFeature) (other.run isFeature)

section Congruence
variable {isFeature : String → Bool}

private theorem Script.weaker_cons {first second : Statement} {rest more : List Statement}
    (head : Weaker (first.run isFeature) (second.run isFeature))
    (tail : Weaker (Script.runStatements isFeature rest) (Script.runStatements isFeature more)) :
    Weaker (Script.runStatements isFeature (first :: rest))
      (Script.runStatements isFeature (second :: more)) := by
  intro s t below
  obtain ⟨after, made⟩ := head s t below
  obtain ⟨final, later⟩ := tail _ _ after
  exact ⟨final, List.rel_append made later⟩

private theorem Script.weaker_branches {bodies others : List Script}
    (each : List.Forall₂ (Script.Weakens isFeature) bodies others) {base start : Scope}
    (starts : base.Below start) :
    Weaker (Script.runBranches isFeature base bodies)
      (Script.runBranches isFeature start others) := by
  induction each with
  | nil => exact fun s t below => ⟨below, .nil⟩
  | cons body _ ih =>
    intro s t below
    obtain ⟨branch, made⟩ := body base start starts
    obtain ⟨final, later⟩ := ih _ _ (below.absorb branch)
    exact ⟨final, List.rel_append made later⟩

private theorem Statement.weaker_control (flow : ControlFlow) {bodies others : List Script}
    (each : List.Forall₂ (Script.Weakens isFeature) bodies others) :
    Weaker ((Statement.control flow bodies).run isFeature)
      ((Statement.control flow others).run isFeature) := by
  intro s t below
  exact Script.weaker_branches each (below.nested _) s t below

end Congruence

mutual
theorem Statement.weaker_self (isFeature : String → Bool) : ∀ (s : Statement),
    Weaker (s.run isFeature) (s.run isFeature)
  | .define name label => fun _ _ below => ⟨below.bind name label, .nil⟩
  | .assign name value => by
    intro s t below
    refine ⟨?_, .nil⟩
    rw [Statement.run, Statement.run]
    split
    · exact below.taint name
    · exact below
  | .editList none => fun _ _ below => ⟨below, .nil⟩
  | .editList (some name) => fun _ _ below => ⟨below.markMutated name, .nil⟩
  | .setAttribute attr target value => fun _ _ below =>
    ⟨below, .cons (Mutation.ofSetAttribute_atMost below attr target value) .nil⟩
  | .control flow bodies =>
    Statement.weaker_control flow (Script.bodies_weaken_self isFeature bodies)
  | .other => fun _ _ below => ⟨below, .nil⟩

theorem Script.statements_weaker_self (isFeature : String → Bool) : ∀ (level : List Statement),
    Weaker (Script.runStatements isFeature level) (Script.runStatements isFeature level)
  | [] => fun _ _ below => ⟨below, .nil⟩
  | first :: rest =>
    Script.weaker_cons (Statement.weaker_self isFeature first)
      (Script.statements_weaker_self isFeature rest)

theorem Script.weakens_self (isFeature : String → Bool) : ∀ (script : Script),
    Script.Weakens isFeature script script
  | .mk _ statements => Script.statements_weaker_self isFeature statements

theorem Script.bodies_weaken_self (isFeature : String → Bool) : ∀ (bodies : List Script),
    List.Forall₂ (Script.Weakens isFeature) bodies bodies
  | [] => .nil
  | body :: rest =>
    .cons (Script.weakens_self isFeature body) (Script.bodies_weaken_self isFeature rest)
end

namespace Place

def insert (added : Statement) : Place → List Statement → List Statement
  | .here, level => added :: level
  | .next p, s :: rest => s :: p.insert added rest
  | .inside b p, .control flow bodies :: rest =>
    let longer (body : Script) : Script := .mk body.element (p.insert added body.statements)
    .control flow (bodies.modify b longer) :: rest
  | _, level => level

end Place

private theorem forall₂_modify {α : Type} {R : α → α → Prop} (same : ∀ a, R a a) {f : α → α}
    (changed : ∀ a, R a (f a)) (l : List α) (i : Nat) : List.Forall₂ R l (l.modify i f) := by
  induction l generalizing i with
  | nil =>
    rw [List.modify_nil]
    exact .nil
  | cons a l ih =>
    cases i with
    | zero =>
      rw [List.modify_zero_cons]
      exact .cons (changed a) (List.forall₂_same.mpr fun x _ => same x)
    | succ i =>
      rw [List.modify_succ_cons]
      exact .cons (same a) (ih i)

theorem Place.weaker_insert_assign {isFeature : String → Bool} (name : String) (value : Element)
    (p : Place) (level : List Statement) :
    Weaker (Script.runStatements isFeature level)
      (Script.runStatements isFeature (p.insert (.assign name value) level)) := by
  induction p generalizing level with
  | here =>
    -- the assignment only adds to the scope in which the rest is read
    intro s t below
    have more : s.Below ((Statement.assign name value).run isFeature t).1 := by
      rw [Statement.run]
      split
      · exact below.learn (t.knownTo_taint name) rfl rfl
      · exact below
    exact Script.statements_weaker_self isFeature level s _ more
  | next p ih =>
    cases level with
    | nil => exact Script.statements_weaker_self isFeature []
    | cons s rest => exact Script.weaker_cons (Statement.weaker_self isFeature s) (ih rest)
  | inside b p ih =>
    match level with
    | [] => exact Script.statements_weaker_self isFeature []
    | .control flow bodies :: rest =>
      apply Script.weaker_cons _ (Script.statements_weaker_self isFeature rest)
      apply Statement.weaker_control
      apply forall₂_modify (Script.weakens_self isFeature)
      rintro ⟨element, statements⟩
      exact ih statements
    | .define .. :: _ | .assign .. :: _ | .editList _ :: _ | .setAttribute .. :: _ | .other :: _ =>
      exact Script.statements_weaker_self isFeature _

private theorem Event.forall₂_atMost (owner : String) {few more : List Mutation}
    (each : List.Forall₂ Mutation.AtMost few more) :
    List.Forall₂ Event.AtMost (few.map (Event.mk owner)) (more.map (Event.mk owner)) := by
  rw [List.forall₂_map_left_iff, List.forall₂_map_right_iff]
  exact each.imp fun m n atMost => ⟨atMost, rfl⟩

/-- More knowledge of code at the start of a script, or one more assignment in it, loses
no event and lowers no level, and it is still more knowledge at the end. -/
theorem Script.run_monotone (isFeature : String → Bool) (owner : String) (script : Script)
    (s t : Scope) (below : s.Below t) :
    let events (outcome : Scope × List Mutation) : List Event := outcome.2.map (Event.mk owner)
    let less := script.run isFeature s
    let more := script.run isFeature t
    List.Forall₂ Event.AtMost (events less) (events more) ∧ less.1.Below more.1 ∧
      ∀ (p : Place) (name : String) (value : Element),
        let longer : Script := .mk script.element (p.insert (.assign name value) script.statements)
        let added := longer.run isFeature s
        List.Forall₂ Event.AtMost (events less) (events added) ∧ less.1.Below added.1 := by
  intro events less more
  obtain ⟨final, made⟩ := Script.weakens_self isFeature script s t below
  refine ⟨Event.forall₂_atMost owner made, final, ?_⟩
  intro p name value longer added
  obtain ⟨element, statements⟩ := script
  obtain ⟨later, kept⟩ := p.weaker_insert_assign name value statements s s (.refl s)
  exact ⟨Event.forall₂_atMost owner kept, later⟩

theorem Script.run_monotone_joined :
    let joined : Element := ⟨"block", [("s", "reportJoinWords")], "",
      [⟨"block", [("var", "tree")], "", []⟩]⟩
    let script : Script := .mk default [.setAttribute "definition" default joined]
    let s : Scope := {}
    let t : Scope := s.taint "tree"
    let events (outcome : Scope × List Mutation) : List Event := outcome.2.map (Event.mk "Stage")
    let less := events (script.run (fun _ => false) s)
    let more := events (script.run (fun _ => false) t)
    s.Below t ∧ List.Forall₂ Event.AtMost less more ∧
      less.map (·.mutation.level) = [.definition] ∧
      more.map (·.mutation.level) = [.pipeline] := by
  intro joined script s t events less more
  have below : s.Below t := (Scope.Below.refl s).learn (s.knownTo_taint "tree") rfl rfl
  refine ⟨below, (Script.run_monotone (fun _ => false) "Stage" script s t below).1, ?_, ?_⟩
  · decide +kernel
  · decide +kernel

end Variability
