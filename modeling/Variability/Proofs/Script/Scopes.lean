import Mathlib.Data.List.Chain
import Variability.Proofs.Script.Facts
import Variability.Script.Scope

/-! The discipline of nested scopes. While branches are read their scopes stand on a
stack, the innermost on top. What is bound or guarded in a branch goes with it; what
it finds out about code is taken in by the scope around it, or dropped. -/
namespace Variability
namespace Scope

@[simp] theorem mem_tainted_taint (s : Scope) (name v : String) :
    v ∈ (s.taint name).tainted ↔ v ∈ s.tainted ∨ name = v :=
  NameSet.mem_insert s.tainted v name

@[simp] theorem tainted_markMutated (s : Scope) (name : String) :
    (s.markMutated name).tainted = s.tainted := by
  unfold markMutated
  split <;> rfl

@[simp] theorem bindings_markMutated (s : Scope) (name : String) :
    (s.markMutated name).bindings = s.bindings := by
  unfold markMutated
  split <;> rfl

@[simp] theorem guards_markMutated (s : Scope) (name : String) :
    (s.markMutated name).guards = s.guards := by
  unfold markMutated
  split <;> rfl

@[simp] theorem mem_mutated_markMutated (s : Scope) (name v : String) :
    v ∈ (s.markMutated name).mutated ↔ v ∈ s.mutated ∨ name = v ∧ v ∈ s.tainted := by
  unfold markMutated
  split
  case isTrue held =>
    rw [Std.TreeSet.contains_iff_mem] at held
    rw [NameSet.mem_insert]
    apply or_congr_right
    constructor
    · intro same
      exact ⟨same, same ▸ held⟩
    · exact And.left
  case isFalse free =>
    rw [Std.TreeSet.contains_iff_mem] at free
    constructor
    · exact Or.inl
    · rintro (known | ⟨rfl, held⟩)
      · exact known
      · exact (free held).elim

@[simp] theorem mem_tainted_absorb (s branch : Scope) (v : String) :
    v ∈ (s.absorb branch).tainted ↔ v ∈ s.tainted ∨ v ∈ branch.tainted :=
  Std.TreeSet.mem_union_iff

@[simp] theorem mem_mutated_absorb (s branch : Scope) (v : String) :
    v ∈ (s.absorb branch).mutated ↔ v ∈ s.mutated ∨ v ∈ branch.mutated :=
  Std.TreeSet.mem_union_iff

/-- What `s` knows of code, `t` knows too. -/
structure KnownTo (s t : Scope) : Prop where
  tainted : ∀ v, v ∈ s.tainted → v ∈ t.tainted
  mutated : ∀ v, v ∈ s.mutated → v ∈ t.mutated

namespace KnownTo

theorem refl (s : Scope) : s.KnownTo s := ⟨fun _ => id, fun _ => id⟩

theorem trans {s t u : Scope} (first : s.KnownTo t) (second : t.KnownTo u) : s.KnownTo u :=
  ⟨fun v known => second.tainted v (first.tainted v known),
    fun v known => second.mutated v (first.mutated v known)⟩

theorem taint {s t : Scope} (known : s.KnownTo t) (name : String) :
    (s.taint name).KnownTo (t.taint name) where
  tainted v := by
    rw [mem_tainted_taint, mem_tainted_taint]
    exact Or.imp_left (known.tainted v)
  mutated := known.mutated

theorem markMutated {s t : Scope} (known : s.KnownTo t) (name : String) :
    (s.markMutated name).KnownTo (t.markMutated name) where
  tainted v := by
    rw [tainted_markMutated, tainted_markMutated]
    exact known.tainted v
  mutated v := by
    rw [mem_mutated_markMutated, mem_mutated_markMutated]
    exact Or.imp (known.mutated v) (And.imp_right (known.tainted v))

theorem absorb {s t branch other : Scope} (known : s.KnownTo t) (found : branch.KnownTo other) :
    (s.absorb branch).KnownTo (t.absorb other) where
  tainted v := by
    rw [mem_tainted_absorb, mem_tainted_absorb]
    exact Or.imp (known.tainted v) (found.tainted v)
  mutated v := by
    rw [mem_mutated_absorb, mem_mutated_absorb]
    exact Or.imp (known.mutated v) (found.mutated v)

end KnownTo

private theorem knownTo_bind (s : Scope) (name label : String) : s.KnownTo (s.bind name label) where
  tainted _ := id
  mutated _ := id

private theorem knownTo_nested (s : Scope) (guard : Option Guard) : s.KnownTo (s.nested guard) where
  tainted _ := id
  mutated _ := id

theorem knownTo_taint (s : Scope) (name : String) : s.KnownTo (s.taint name) where
  tainted v known := (mem_tainted_taint s name v).mpr (.inl known)
  mutated _ := id

private theorem knownTo_markMutated (s : Scope) (name : String) : s.KnownTo
    (s.markMutated name) where
  tainted v known := by rwa [tainted_markMutated]
  mutated v known := (mem_mutated_markMutated s name v).mpr (.inl known)

private theorem knownTo_absorb (s branch : Scope) : s.KnownTo (s.absorb branch) where
  tainted v known := (mem_tainted_absorb s branch v).mpr (.inl known)
  mutated v known := (mem_mutated_absorb s branch v).mpr (.inl known)

/-- Only variables that may hold code count as edited. -/
def EditsCode (s : Scope) : Prop := ∀ v, v ∈ s.mutated → v ∈ s.tainted

private theorem editsCode_empty : EditsCode {} := by
  intro v known
  exact (Std.TreeSet.not_mem_emptyc known).elim

theorem EditsCode.taint {s : Scope} (edits : s.EditsCode) (name : String) :
    (s.taint name).EditsCode := by
  intro v known
  exact (s.knownTo_taint name).tainted v (edits v known)

theorem EditsCode.markMutated {s : Scope} (edits : s.EditsCode) (name : String) :
    (s.markMutated name).EditsCode := by
  intro v known
  rw [mem_mutated_markMutated] at known
  rw [tainted_markMutated]
  exact known.elim (edits v) And.right

theorem EditsCode.absorb {s branch : Scope} (edits : s.EditsCode) (inner : branch.EditsCode) :
    (s.absorb branch).EditsCode := by
  intro v known
  rw [mem_mutated_absorb] at known
  rw [mem_tainted_absorb]
  exact known.imp (edits v) (inner v)

/-- `outer.Encloses inner`: the inner scope may have learned more about code and may
stand under one more guard. -/
structure Encloses (outer inner : Scope) : Prop extends KnownTo outer inner where
  guards : outer.guards <+: inner.guards
  atMostOneMore : inner.guards.length ≤ outer.guards.length + 1
  featureGuarded : outer.isFeatureGuarded = true → inner.isFeatureGuarded = true

@[simp] theorem isFeatureGuarded_nested (s : Scope) (guard : Option Guard) :
    (s.nested guard).isFeatureGuarded =
      (s.isFeatureGuarded || guard.any Guard.isFeatureGuard) := by
  rw [isFeatureGuarded, nested, List.any_append]
  cases guard <;> simp [isFeatureGuarded]

theorem encloses_nested (s : Scope) (guard : Option Guard) : s.Encloses (s.nested guard) where
  toKnownTo := s.knownTo_nested guard
  guards := List.prefix_append s.guards guard.toList
  atMostOneMore := by
    rw [nested, List.length_append]
    cases guard <;> simp
  featureGuarded guarded := by rw [isFeatureGuarded_nested, guarded, Bool.true_or]

theorem Encloses.learn {outer inner later : Scope} (around : outer.Encloses inner)
    (known : inner.KnownTo later) (same : later.guards = inner.guards) :
    outer.Encloses later where
  toKnownTo := around.toKnownTo.trans known
  guards := by rw [same]; exact around.guards
  atMostOneMore := by rw [same]; exact around.atMostOneMore
  featureGuarded guarded := by
    rw [isFeatureGuarded, same]
    exact around.featureGuarded guarded

inductive Action where
  | bind (name label : String)
  | taint (name : String)
  | markMutated (name : String)
  | enter (guard : Option Guard)
  /-- The branch is finished, and the scope around it takes in what it found out. -/
  | leave
  /-- The branch is forgotten. -/
  | drop
  deriving DecidableEq, Repr

/-- The open scopes. The outermost is never left, so there is always one on top. -/
structure Stack where
  top : Scope := {}
  /-- Innermost first. -/
  below : List Scope := []

namespace Stack

def scopes (s : Stack) : List Scope := s.top :: s.below

def step (s : Stack) : Action → Stack
  | .bind name label => { s with top := s.top.bind name label }
  | .taint name => { s with top := s.top.taint name }
  | .markMutated name => { s with top := s.top.markMutated name }
  | .enter guard => ⟨s.top.nested guard, s.top :: s.below⟩
  | .leave =>
    match s.below with
    | [] => s
    | outer :: rest => ⟨outer.absorb s.top, rest⟩
  | .drop =>
    match s.below with
    | [] => s
    | outer :: rest => ⟨outer, rest⟩

def run (s : Stack) (actions : List Action) : Stack := actions.foldl step s

structure Disciplined (s : Stack) : Prop where
  edits : ∀ scope ∈ s.scopes, scope.EditsCode
  nesting : s.scopes.IsChain fun inner outer => outer.Encloses inner

namespace Disciplined

theorem fresh : Disciplined {} where
  edits := by
    intro scope listed
    rw [List.mem_singleton.mp listed]
    exact editsCode_empty
  nesting := .singleton _

theorem learn {top later : Scope} {below : List Scope} (disciplined : Disciplined ⟨top, below⟩)
    (edits : later.EditsCode) (known : top.KnownTo later) (same : later.guards = top.guards) :
    Disciplined ⟨later, below⟩ where
  edits := by
    intro scope listed
    rcases List.mem_cons.mp listed with rfl | deeper
    · exact edits
    · exact disciplined.edits scope (List.mem_cons_of_mem top deeper)
  nesting := by
    cases below with
    | nil => exact .singleton later
    | cons outer rest =>
      obtain ⟨around, deeper⟩ := List.isChain_cons_cons.mp disciplined.nesting
      exact List.isChain_cons_cons.mpr ⟨around.learn known same, deeper⟩

theorem enter {s : Stack} (disciplined : s.Disciplined) (guard : Option Guard) :
    (s.step (.enter guard)).Disciplined where
  edits := by
    intro scope listed
    rcases List.mem_cons.mp listed with rfl | deeper
    · exact disciplined.edits s.top List.mem_cons_self
    · exact disciplined.edits scope deeper
  nesting := List.isChain_cons_cons.mpr ⟨s.top.encloses_nested guard, disciplined.nesting⟩

theorem pop {top outer : Scope} {rest : List Scope}
    (disciplined : Disciplined ⟨top, outer :: rest⟩) : Disciplined ⟨outer, rest⟩ where
  edits := by
    intro scope listed
    exact disciplined.edits scope (List.mem_cons_of_mem top listed)
  nesting := (List.isChain_cons_cons.mp disciplined.nesting).2

theorem step {s : Stack} (disciplined : s.Disciplined) (action : Action) :
    (s.step action).Disciplined := by
  obtain ⟨top, below⟩ := s
  have edits : top.EditsCode := disciplined.edits top List.mem_cons_self
  cases action with
  | bind name label => exact disciplined.learn edits (top.knownTo_bind name label) rfl
  | taint name => exact disciplined.learn (edits.taint name) (top.knownTo_taint name) rfl
  | markMutated name =>
    exact disciplined.learn (edits.markMutated name) (top.knownTo_markMutated name)
      (top.guards_markMutated name)
  | enter guard => exact disciplined.enter guard
  | leave =>
    cases below with
    | nil => exact disciplined
    | cons outer rest =>
      have outerEdits := disciplined.pop.edits outer List.mem_cons_self
      exact disciplined.pop.learn (outerEdits.absorb edits) (outer.knownTo_absorb top) rfl
  | drop =>
    cases below with
    | nil => exact disciplined
    | cons outer rest => exact disciplined.pop

theorem run {s : Stack} (disciplined : s.Disciplined) (actions : List Action) :
    (s.run actions).Disciplined := by
  induction actions generalizing s with
  | nil => exact disciplined
  | cons action rest ih => exact ih (disciplined.step action)

end Disciplined
end Stack

/-- The height after an action, counted from where a run starts; none when the action
would go below the start. -/
def Action.height? (height : Nat) : Action → Option Nat
  | .enter _ => some (height + 1)
  | .leave | .drop =>
    match height with
    | 0 => none
    | height + 1 => some height
  | _ => some height

/-- Every branch that the actions enter they also finish, and no other. -/
def Balanced (actions : List Action) : Prop := actions.foldlM Action.height? 0 = some 0

instance (actions : List Action) : Decidable (Balanced actions) :=
  inferInstanceAs (Decidable (_ = _))

namespace Stack

private theorem exists_below_step {s : Stack} {inner base : List Scope} {action : Action}
    {height : Nat}
    (stands : s.below = inner ++ base) (stays : action.height? inner.length = some height) :
    ∃ above, (s.step action).below = above ++ base ∧ above.length = height := by
  obtain ⟨top, below⟩ := s
  change below = inner ++ base at stands
  subst stands
  cases action with
  | enter guard => exact ⟨top :: inner, rfl, Option.some.inj stays⟩
  | leave | drop =>
    cases inner with
    | nil => cases stays
    | cons outer rest => exact ⟨rest, rfl, Option.some.inj stays⟩
  | _ => exact ⟨inner, rfl, Option.some.inj stays⟩

private theorem exists_below_run (actions : List Action) {s : Stack} {inner base : List Scope}
    {height : Nat} (stands : s.below = inner ++ base)
    (stays : actions.foldlM Action.height? inner.length = some height) :
    ∃ above, (s.run actions).below = above ++ base ∧ above.length = height := by
  induction actions generalizing s inner with
  | nil => exact ⟨inner, stands, Option.some.inj stays⟩
  | cons action rest ih =>
    rw [List.foldlM_cons] at stays
    obtain ⟨next, first, later⟩ := Option.bind_eq_some_iff.mp stays
    obtain ⟨above, reached, rfl⟩ := exists_below_step stands first
    exact ih reached later

theorem below_run {actions : List Action} (balanced : Balanced actions) (s : Stack) :
    (s.run actions).below = s.below := by
  have stands : s.below = [] ++ s.below := rfl
  obtain ⟨above, reached, level⟩ := exists_below_run actions stands balanced
  rw [reached, List.eq_nil_of_length_eq_zero level, List.nil_append]

@[simp] theorem run_append (s : Stack) (actions more : List Action) :
    s.run (actions ++ more) = (s.run actions).run more :=
  List.foldl_append

theorem below_run_enter {body : List Action} (balanced : Balanced body) (s : Stack)
    (guard : Option Guard) : (s.run (.enter guard :: body)).below = s.top :: s.below :=
  below_run balanced (s.step (.enter guard))

theorem run_leave {body : List Action} (balanced : Balanced body) (s : Stack)
    (guard : Option Guard) :
    s.run (.enter guard :: body ++ [.leave]) =
      ⟨s.top.absorb (s.run (.enter guard :: body)).top, s.below⟩ := by
  rw [run_append, run, List.foldl_cons, List.foldl_nil, step, below_run_enter balanced]

theorem run_drop {body : List Action} (balanced : Balanced body) (s : Stack)
    (guard : Option Guard) : s.run (.enter guard :: body ++ [.drop]) = s := by
  rw [run_append, run, List.foldl_cons, List.foldl_nil, step, below_run_enter balanced]

/-- Whatever is done from one empty scope on, the scopes on the stack are nested; and a
branch that is entered and finished changes nothing of the scope around it but what is
known of code there, or nothing at all when it is dropped. -/
theorem run_disciplined (actions : List Action) :
    let s := Stack.run {} actions
    (∀ scope ∈ s.scopes, ∀ v, v ∈ scope.mutated → v ∈ scope.tainted) ∧
      (s.scopes.IsChain fun inner outer => outer.Encloses inner) ∧
      ∀ (guard : Option Guard) (body : List Action), Balanced body →
        let branch := (s.run (.enter guard :: body)).top
        let after := s.run (.enter guard :: body ++ [.leave])
        after.below = s.below ∧ after.top.bindings = s.top.bindings ∧
          after.top.guards = s.top.guards ∧
          (∀ v, v ∈ after.top.tainted ↔ v ∈ s.top.tainted ∨ v ∈ branch.tainted) ∧
          (∀ v, v ∈ after.top.mutated ↔ v ∈ s.top.mutated ∨ v ∈ branch.mutated) ∧
          s.run (.enter guard :: body ++ [.drop]) = s := by
  intro s
  have disciplined : s.Disciplined := Disciplined.fresh.run actions
  refine ⟨disciplined.edits, disciplined.nesting, ?_⟩
  intro guard body balanced branch after
  have finished : after = ⟨s.top.absorb branch, s.below⟩ := run_leave balanced s guard
  rw [finished]
  refine ⟨rfl, rfl, rfl, ?_, ?_, run_drop balanced s guard⟩
  · exact mem_tainted_absorb s.top branch
  · exact mem_mutated_absorb s.top branch

theorem run_disciplined_nested :
    let before : List Action := [.taint "tree", .bind "b" "jump"]
    let body : List Action :=
      [.bind "b" "walk", .enter none, .markMutated "tree", .leave, .enter none, .drop]
    let guard : Option Guard := some ⟨"doIf", ["mode"]⟩
    let after := (Stack.run {} before).run (.enter guard :: body ++ [.leave])
    Balanced body ∧ "tree" ∈ after.top.mutated ∧ after.top.bindings["b"]? = some "jump" ∧
      after.top.guards = [] := by
  intro before body guard after
  have balanced : Balanced body := by decide
  obtain ⟨_, bindings, guards, _, mutated, _⟩ :=
    (run_disciplined before).2.2 guard body balanced
  refine ⟨balanced, (mutated "tree").mpr (.inr ?_), ?_, guards⟩
  · decide
  · rw [bindings]
    decide

end Stack
end Scope
end Variability
