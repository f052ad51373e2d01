import Variability.Proofs.Analysis.Event
import Variability.Proofs.Script.Visibility

/-! Lexical scoping of the blocks that variables hold. A binding reaches the
statements after it at its own level and everything in their bodies, and
nothing else; where several reach a place, the last one counts. -/
namespace Variability

def Statement.label? (v : String) : Statement → Option String
  | .define name label => if name = v then some label else none
  | _ => none

namespace Place

/-- `d.InScope m`: the statement at `d` is an earlier sibling of the one at `m`
or of a statement around `m`. -/
inductive InScope : Place → Place → Prop where
  | sibling (m : Place) : InScope .here (.next m)
  | next {d m : Place} : InScope d m → InScope (.next d) (.next m)
  | inside (b : Nat) {d m : Place} : InScope d m → InScope (.inside b d) (.inside b m)

/-- The label that the variable stands for at a place. The innermost level is
asked first, and at each level the last statement. -/
def label? (v : String) : Place → List Statement → Option String
  | .here, _ => none
  | .next m, level => (m.label? v level.tail).or (level.head?.bind (Statement.label? v))
  | .inside b m, level => (body? b level).bind fun (_, body) => m.label? v body.statements

def LastDefine (level : List Statement) (m d : Place) (v label : String) : Prop :=
  d.InScope m ∧ d.statement? level = some (.define v label) ∧
    ∀ (other : Place) (label' : String), other.InScope m →
      other.statement? level = some (.define v label') → other = d ∨ other.Before d

@[simp] theorem not_inScope_here (d : Place) : ¬ d.InScope .here := by
  intro h
  cases h

@[simp] theorem inScope_next_iff (d m : Place) :
    (Place.next d).InScope (.next m) ↔ d.InScope m := by
  constructor
  · intro h
    cases h with
    | next h => exact h
  · exact .next

@[simp] theorem not_inScope_inside_next (b : Nat) (d m : Place) :
    ¬ (Place.inside b d).InScope (.next m) := by
  intro h
  cases h

@[simp] theorem inScope_inside_iff (b c : Nat) (d m : Place) :
    (Place.inside b d).InScope (.inside c m) ↔ b = c ∧ d.InScope m := by
  constructor
  · intro h
    cases h with
    | inside _ h => exact ⟨rfl, h⟩
  · rintro ⟨rfl, h⟩
    exact .inside b h

theorem inScope_past (c q : Place) : c.InScope (c.past q) := by
  induction c with
  | here => exact .sibling q
  | next c ih => exact .next ih
  | inside k c ih => exact .inside k ih

@[simp] theorem not_inScope_into_past (c : Place) (b : Nat) (p q : Place) :
    ¬ (c.into b p).InScope (c.past q) := by
  induction c with
  | here => simp [into, past]
  | next c ih => simpa [into, past] using ih
  | inside k c ih => simpa [into, past] using ih

theorem not_inScope_other_body (c : Place) {b d : Nat} (other : b ≠ d) (p q : Place) :
    ¬ (c.into b p).InScope (c.into d q) := by
  induction c with
  | here => simp [into, other]
  | next c ih => simpa [into] using ih
  | inside k c ih => simpa [into] using ih

end Place

@[simp] theorem Script.runBranches_bindings (isFeature : String → Bool) (base : Scope)
    (bodies : List Script) (scope : Scope) :
    (Script.runBranches isFeature base bodies scope).1.bindings = scope.bindings := by
  induction bodies generalizing scope with
  | nil => rfl
  | cons body rest ih =>
    simp only [Script.runBranches]
    rw [ih]
    rfl

@[simp] theorem Statement.getElem?_bindings_run (isFeature : String → Bool) (s : Statement)
    (scope : Scope) (v : String) :
    (s.run isFeature scope).1.bindings[v]? = (s.label? v).or scope.bindings[v]? := by
  cases s with
  | define name label =>
    simp only [Statement.run, Scope.bind, Statement.label?, Std.TreeMap.getElem?_insert,
      Std.LawfulEqCmp.compare_eq_iff_eq]
    split <;> rfl
  | assign name value =>
    simp only [Statement.run, Statement.label?, Option.none_or]
    split <;> rfl
  | editList target =>
    cases target with
    | none => rfl
    | some name =>
      simp only [Statement.run, Option.elim_some, Scope.markMutated, Statement.label?,
        Option.none_or]
      split <;> rfl
  | setAttribute attr target value => rfl
  | control flow bodies =>
    rw [Statement.run, Script.runBranches_bindings]
    rfl
  | other => rfl

@[simp] theorem Statement.label?_eq_some_iff (s : Statement) (v label : String) :
    s.label? v = some label ↔ s = .define v label := by
  cases s with
  | define name text => by_cases same : name = v <;> simp [Statement.label?, same]
  | _ => simp [Statement.label?]

private theorem Statement.head_label?_eq_some_iff (level : List Statement) (v label : String) :
    level.head?.bind (Statement.label? v) = some label ↔
      level.head? = some (.define v label) := by
  cases level with
  | nil => simp
  | cons s rest => simp

namespace Place

theorem getElem?_bindings_scope (isFeature : String → Bool) (m : Place) (level : List Statement)
    (scope : Scope) (v : String) :
    (m.scope isFeature level scope).bindings[v]? = (m.label? v level).or scope.bindings[v]? := by
  induction m generalizing level scope with
  | here => simp [Place.scope, label?]
  | next m ih =>
    rw [Place.scope, label?, ih, Option.or_assoc]
    cases level with
    | nil => rfl
    | cons s rest => rw [List.head?_cons, Option.elim_some, Statement.getElem?_bindings_run]; rfl
  | inside b m ih =>
    rw [Place.scope, label?]
    cases body? b level with
    | none => rfl
    | some head => exact ih head.2.statements _

theorem isSome_label?_iff (v : String) (m : Place) (level : List Statement) :
    (m.label? v level).isSome ↔
      ∃ (d : Place) (label : String), d.InScope m ∧
        d.statement? level = some (.define v label) := by
  induction m generalizing level with
  | here => simp [label?]
  | next m ih =>
    rw [label?, Option.isSome_or, Bool.or_eq_true, ih]
    constructor
    · rintro (⟨d, label, inScope, found⟩ | bound)
      · exact ⟨.next d, label, .next inScope, found⟩
      · obtain ⟨label, first⟩ := Option.isSome_iff_exists.mp bound
        rw [Statement.head_label?_eq_some_iff] at first
        exact ⟨.here, label, .sibling m, first⟩
    · rintro ⟨d, label, inScope, found⟩
      cases inScope with
      | sibling =>
        rw [statement?, ← Statement.head_label?_eq_some_iff] at found
        exact .inr (Option.isSome_of_eq_some found)
      | @next d _ inScope => exact .inl ⟨d, label, inScope, found⟩
  | inside b m ih =>
    rw [label?]
    cases entered : body? b level with
    | none =>
      constructor
      · intro bound
        cases bound
      · rintro ⟨d, label, inScope, found⟩
        cases inScope with
        | inside _ inScope => simp [statement?, entered] at found
    | some head =>
      obtain ⟨flow, body⟩ := head
      rw [Option.bind_some, ih]
      constructor
      · rintro ⟨d, label, inScope, found⟩
        exact ⟨.inside b d, label, .inside b inScope,
          (statement?_inside b d level flow body entered).trans found⟩
      · rintro ⟨d, label, inScope, found⟩
        cases inScope with
        | @inside _ d _ inScope =>
          exact ⟨d, label, inScope, (statement?_inside b d level flow body entered).symm.trans found⟩

theorem exists_lastDefine (v label : String) (m : Place) (level : List Statement)
    (bound : m.label? v level = some label) : ∃ d, LastDefine level m d v label := by
  induction m generalizing level with
  | here => simp [label?] at bound
  | next m ih =>
    rw [label?] at bound
    cases later : m.label? v level.tail with
    | some found =>
      -- a definition further on hides the first statement, whatever that is
      rw [later, Option.some_or] at bound
      cases bound
      obtain ⟨d, inScope, found, last⟩ := ih level.tail later
      refine ⟨.next d, .next inScope, found, ?_⟩
      intro other label' otherInScope otherFound
      cases otherInScope with
      | sibling => exact .inr (.here_next d)
      | @next other _ otherInScope =>
        rcases last other label' otherInScope otherFound with same | before
        · exact .inl (congrArg Place.next same)
        · exact .inr (.next before)
    | none =>
      rw [later, Option.none_or, Statement.head_label?_eq_some_iff] at bound
      refine ⟨.here, .sibling m, bound, ?_⟩
      intro other label' otherInScope otherFound
      cases otherInScope with
      | sibling => exact .inl rfl
      | @next other _ otherInScope =>
        have reached := (isSome_label?_iff v m level.tail).mpr
          ⟨other, label', otherInScope, otherFound⟩
        rw [later] at reached
        cases reached
  | inside b m ih =>
    rw [label?] at bound
    cases entered : body? b level with
    | none => simp [entered] at bound
    | some head =>
      obtain ⟨flow, body⟩ := head
      rw [entered, Option.bind_some] at bound
      obtain ⟨d, inScope, found, last⟩ := ih body.statements bound
      refine ⟨.inside b d, .inside b inScope,
        (statement?_inside b d level flow body entered).trans found, ?_⟩
      intro other label' otherInScope otherFound
      cases otherInScope with
      | @inside _ other _ otherInScope =>
        rw [statement?_inside b other level flow body entered] at otherFound
        rcases last other label' otherInScope otherFound with same | before
        · exact .inl (congrArg (Place.inside b) same)
        · exact .inr (.inside b before)

private theorem LastDefine.label_eq {level : List Statement} {m d e : Place}
    {v label label' : String}
    (one : LastDefine level m d v label) (two : LastDefine level m e v label') :
    label = label' := by
  have same : d = e := by
    rcases one.2.2 e label' two.1 two.2.1 with same | before
    · exact same.symm
    · rcases two.2.2 d label one.1 one.2.1 with same | after
      · exact same
      · exact (before.asymm after).elim
  have found := two.2.1
  rw [← same, one.2.1] at found
  cases found
  rfl

theorem label?_eq_some_iff (v label : String) (m : Place) (level : List Statement) :
    m.label? v level = some label ↔ ∃ d, LastDefine level m d v label := by
  constructor
  · exact exists_lastDefine v label m level
  · rintro ⟨d, last⟩
    have reached := (isSome_label?_iff v m level).mpr ⟨d, label, last.1, last.2.1⟩
    obtain ⟨label', bound⟩ := Option.isSome_iff_exists.mp reached
    obtain ⟨e, last'⟩ := exists_lastDefine v label' m level bound
    rw [bound, last.label_eq last']

end Place

theorem Resolution.target?_of_variable (bindings : Bindings) (target : Element) (v : String)
    (named : target.variableName? = some v) :
    (Resolution.ofElement bindings target).target? = bindings[v]? := by
  simp only [Resolution.ofElement, named]
  cases bindings[v]? <;> rfl

/-- The block that a script changes through a variable is the one that the last
definition in scope bound to it. Bindings go forward and inward: never out of a
body, never into another body, and never into another script, whose changes do
not depend on what was visited before. -/
theorem Script.target_of_variable (isFeature : String → Bool) (script : Script) (m : Place)
    (attr : String) (target value : Element) (v : String)
    (reached : m.statement? script.statements = some (.setAttribute attr target value))
    (named : target.variableName? = some v) :
    let change := Mutation.ofSetAttribute (m.scope isFeature script.statements {}) attr target value
    script.mutations isFeature =
        script.places.filterMap (Place.change? isFeature script.statements {}) ∧
      m ∈ script.places ∧ Place.change? isFeature script.statements {} m = some change ∧
      (change.resolution.target?.isSome ↔ ∃ (d : Place) (label : String), d.InScope m ∧
        d.statement? script.statements = some (.define v label)) ∧
      (∀ label, change.resolution.target? = some label ↔
        ∃ d, Place.LastDefine script.statements m d v label) ∧
      (∀ (c : Place) (b : Nat) (p q : Place), ¬ (c.into b p).InScope (c.past q)) ∧
      (∀ (c : Place) (b d : Nat) (p q : Place), b ≠ d → ¬ (c.into b p).InScope (c.into d q)) ∧
      (∀ c q : Place, c.InScope (c.past q)) ∧
      (∀ (s : Survey) (visit : Visit),
        (s.visit visit).blocks =
            (visit.events s.configured.contains).foldl Event.count s.blocks ∧
          (s.visit visit).unknown = s.unknown ++
            (Event.listed s.settings (visit.events s.configured.contains)).toArray) := by
  intro change
  have bound : change.resolution.target? = m.label? v script.statements := by
    rw [show change.resolution = Resolution.ofElement _ target from rfl,
      Resolution.target?_of_variable _ target v named, Place.getElem?_bindings_scope,
      Std.TreeMap.getElem?_emptyc, Option.or_none]
  obtain ⟨member, made⟩ := Script.change?_of_reached isFeature script m reached
  refine ⟨Script.mutations_eq isFeature script, member, made, ?_, ?_, ?_, ?_, ?_, ?_⟩
  · rw [bound, Place.isSome_label?_iff]
  · intro label
    rw [bound, Place.label?_eq_some_iff]
  · exact Place.not_inScope_into_past
  · exact fun c b d p q other => Place.not_inScope_other_body c other p q
  · exact Place.inScope_past
  · exact fun s visit => ⟨Survey.visit_blocks s visit, Survey.visit_unknown s visit⟩

theorem Script.target_of_variable_hidden :
    let held : Element := ⟨"block", [("var", "b")], "", []⟩
    let script : Script := .mk default
      [.define "b" "jump",
        .control ⟨"doIf", .conditional, none⟩
          [.mk default [.define "b" "walk", .setAttribute "category" held default]]]
    let m : Place := .next (.inside 0 (.next .here))
    m.statement? script.statements = some (.setAttribute "category" held default) ∧
      held.variableName? = some "b" ∧
      (Mutation.ofSetAttribute (m.scope (fun _ => false) script.statements {})
        "category" held default).resolution.target? = some "walk" := by
  intro held script m
  have named : held.variableName? = some "b" := by decide
  have targets := Script.target_of_variable (fun _ => false) script m "category" held default "b"
    rfl named
  refine ⟨rfl, named, (targets.2.2.2.2.1 "walk").mpr
    ⟨.next (.inside 0 .here), .next (.inside 0 (.sibling .here)), rfl, ?_⟩⟩
  intro other label inScope _
  change other.InScope (.next (.inside 0 (.next .here))) at inScope
  cases inScope with
  | sibling => exact .inr (.here_next _)
  | next inScope =>
    cases inScope with
    | inside _ inScope =>
      cases inScope with
      | sibling => exact .inl rfl
      | next inScope => cases inScope

end Variability
