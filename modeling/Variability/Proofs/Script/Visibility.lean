import Variability.Proofs.Script.Place

/-! What reading remembers. Some of what it finds out about a script outlives the
branch that found it out. Such a thing is known at a place exactly when it was
found out at a place that is visible from there. -/
namespace Variability
namespace Place

/-- `a.Visible m`: the statement at `a` is an earlier sibling of the one at `m`
or of a statement around `m`, or lies in a body of such a sibling. -/
inductive Visible : Place → Place → Prop where
  | sibling (m : Place) : Visible .here (.next m)
  | within (b : Nat) (a m : Place) : Visible (.inside b a) (.next m)
  | next {a m : Place} : Visible a m → Visible (.next a) (.next m)
  | inside (b : Nat) {a m : Place} : Visible a m → Visible (.inside b a) (.inside b m)

@[simp] theorem not_visible_here (a : Place) : ¬ a.Visible .here := by
  intro h
  cases h

@[simp] theorem visible_here_next (m : Place) : Place.here.Visible (.next m) := .sibling m

@[simp] theorem visible_inside_next (b : Nat) (a m : Place) :
    (Place.inside b a).Visible (.next m) := .within b a m

@[simp] theorem visible_next_iff (a m : Place) :
    (Place.next a).Visible (.next m) ↔ a.Visible m := by
  constructor
  · intro h
    cases h with
    | next h => exact h
  · exact .next

@[simp] theorem visible_inside_iff (b c : Nat) (a m : Place) :
    (Place.inside b a).Visible (.inside c m) ↔ b = c ∧ a.Visible m := by
  constructor
  · intro h
    cases h with
    | inside _ h => exact ⟨rfl, h⟩
  · rintro ⟨rfl, h⟩
    exact .inside b h

@[simp] theorem not_visible_here_inside (b : Nat) (m : Place) :
    ¬ Place.here.Visible (.inside b m) := by
  intro h
  cases h

@[simp] theorem not_visible_next_inside (b : Nat) (a m : Place) :
    ¬ (Place.next a).Visible (.inside b m) := by
  intro h
  cases h

def into : Place → Nat → Place → Place
  | .here, b, p => .inside b p
  | .next c, b, p => .next (c.into b p)
  | .inside k c, b, p => .inside k (c.into b p)

def past : Place → Place → Place
  | .here, p => .next p
  | .next c, p => .next (c.past p)
  | .inside k c, p => .inside k (c.past p)

theorem visible_into_past (c : Place) (b : Nat) (p q : Place) :
    (c.into b p).Visible (c.past q) := by
  induction c with
  | here => exact .within b p q
  | next c ih => exact .next ih
  | inside k c ih => exact .inside k ih

theorem not_visible_other_body (c : Place) {b d : Nat} (other : b ≠ d) (p q : Place) :
    ¬ (c.into b p).Visible (c.into d q) := by
  induction c with
  | here => simp [into, other]
  | next c ih => simpa [into] using ih
  | inside k c ih => simpa [into] using ih

private theorem exists_iff (P : Place → Prop) :
    (∃ p, P p) ↔ P .here ∨ (∃ b q, P (.inside b q)) ∨ ∃ q, P (.next q) := by
  constructor
  · rintro ⟨p, h⟩
    cases p with
    | here => exact .inl h
    | next q => exact .inr (.inr ⟨q, h⟩)
    | inside b q => exact .inr (.inl ⟨b, q, h⟩)
  · rintro (h | ⟨b, q, h⟩ | ⟨q, h⟩)
    · exact ⟨_, h⟩
    · exact ⟨_, h⟩
    · exact ⟨_, h⟩

end Place

/-- A property of scopes that every statement keeps once it holds, and that a
statement brings about exactly when `gain` holds of it. -/
structure Remembered (isFeature : String → Bool) (known : Scope → Prop)
    (gain : Statement → Scope → Prop) : Prop where
  nested : ∀ scope guard, known (Scope.nested scope guard) ↔ known scope
  absorb : ∀ scope branch, known (Scope.absorb scope branch) ↔ known scope ∨ known branch
  simple : ∀ (s : Statement) scope, (∀ flow bodies, s ≠ .control flow bodies) →
    (known (s.run isFeature scope).1 ↔ known scope ∨ gain s scope)
  control : ∀ flow bodies scope, ¬ gain (.control flow bodies) scope

def GainedIn (isFeature : String → Bool) (gain : Statement → Scope → Prop)
    (level : List Statement) (scope : Scope) : Prop :=
  ∃ (p : Place) (s : Statement),
    p.statement? level = some s ∧ gain s (p.scope isFeature level scope)

namespace Remembered
variable {isFeature : String → Bool} {known : Scope → Prop} {gain : Statement → Scope → Prop}

private theorem gainedIn_nil (scope : Scope) : ¬ GainedIn isFeature gain [] scope := by
  rintro ⟨p, s, found, _⟩
  simp at found

private theorem gainedIn_cons (s : Statement) (rest : List Statement) (scope : Scope) :
    GainedIn isFeature gain (s :: rest) scope ↔
      GainedIn isFeature gain [s] scope ∨
        GainedIn isFeature gain rest (s.run isFeature scope).1 := by
  unfold GainedIn
  rw [Place.exists_iff, Place.exists_iff (fun p => ∃ t, p.statement? [s] = some t ∧ _)]
  simp only [Place.statement?, Place.scope, Place.body?_cons _ s rest, List.head?_cons,
    List.tail_cons, Option.elim_some, Place.statement?_nil, reduceCtorEq, false_and,
    exists_false, or_false, or_assoc]

private theorem gainedIn_control (r : Remembered isFeature known gain) (flow : ControlFlow)
    (bodies : List Script) (scope : Scope) :
    GainedIn isFeature gain [.control flow bodies] scope ↔
      ∃ body ∈ bodies, GainedIn isFeature gain body.statements
        (scope.nested (flow.guard? isFeature)) := by
  constructor
  · rintro ⟨p, s, found, gained⟩
    cases p with
    | here =>
      cases found
      exact (r.control _ _ _ gained).elim
    | next p => simp at found
    | inside b q =>
      cases body? : bodies[b]? with
      | none => simp [Place.statement?, body?] at found
      | some body =>
        refine ⟨body, List.mem_of_getElem? body?, q, s, ?_, ?_⟩
        · simpa [Place.statement?, body?] using found
        · simpa [Place.scope, body?] using gained
  · rintro ⟨body, member, q, s, found, gained⟩
    obtain ⟨b, body?⟩ := List.mem_iff_getElem?.mp member
    refine ⟨.inside b q, s, ?_, ?_⟩
    · simpa [Place.statement?, body?] using found
    · simpa [Place.scope, body?] using gained

private theorem gainedIn_simple (s : Statement) (simple : ∀ flow bodies, s ≠ .control flow bodies)
    (scope : Scope) : GainedIn isFeature gain [s] scope ↔ gain s scope := by
  constructor
  · rintro ⟨p, t, found, gained⟩
    cases p with
    | here =>
      cases found
      exact gained
    | next p => simp at found
    | inside b q =>
      cases s with
      | control flow bodies => exact (simple flow bodies rfl).elim
      | _ => simp [Place.statement?, Place.body?] at found
  · intro gained
    exact ⟨.here, s, rfl, gained⟩

mutual
theorem run_iff (r : Remembered isFeature known gain) : ∀ (s : Statement) (scope : Scope),
    known (s.run isFeature scope).1 ↔ known scope ∨ GainedIn isFeature gain [s] scope
  | .control flow bodies, scope => by
    rw [Statement.run, runBranches_iff r bodies, gainedIn_control r, r.nested]
    constructor
    · rintro (h | ⟨body, member, h | h⟩)
      · exact .inl h
      · exact .inl h
      · exact .inr ⟨body, member, h⟩
    · rintro (h | ⟨body, member, h⟩)
      · exact .inl h
      · exact .inr ⟨body, member, .inr h⟩
  | .define name label, scope => by
    rw [gainedIn_simple _ (by simp), r.simple _ _ (by simp)]
  | .assign name value, scope => by
    rw [gainedIn_simple _ (by simp), r.simple _ _ (by simp)]
  | .editList target, scope => by
    rw [gainedIn_simple _ (by simp), r.simple _ _ (by simp)]
  | .setAttribute attr target value, scope => by
    rw [gainedIn_simple _ (by simp), r.simple _ _ (by simp)]
  | .other, scope => by
    rw [gainedIn_simple _ (by simp), r.simple _ _ (by simp)]

theorem runStatements_iff (r : Remembered isFeature known gain) :
    ∀ (level : List Statement) (scope : Scope),
    known (Script.runStatements isFeature level scope).1 ↔
      known scope ∨ GainedIn isFeature gain level scope
  | [], scope => by simp [Script.runStatements, gainedIn_nil]
  | s :: rest, scope => by
    simp only [Script.runStatements]
    rw [runStatements_iff r rest, run_iff r s, gainedIn_cons s rest, or_assoc]

theorem runScript_iff (r : Remembered isFeature known gain) :
    ∀ (script : Script) (scope : Scope),
    known (script.run isFeature scope).1 ↔
      known scope ∨ GainedIn isFeature gain script.statements scope
  | .mk _ statements, scope => runStatements_iff r statements scope

theorem runBranches_iff (r : Remembered isFeature known gain) :
    ∀ (bodies : List Script) (base scope : Scope),
    known (Script.runBranches isFeature base bodies scope).1 ↔
      known scope ∨ ∃ body ∈ bodies, known base ∨ GainedIn isFeature gain body.statements base
  | [], base, scope => by simp [Script.runBranches]
  | body :: rest, base, scope => by
    simp only [Script.runBranches]
    rw [runBranches_iff r rest, r.absorb, runScript_iff r body]
    simp only [List.mem_cons, exists_eq_or_imp, or_assoc]
end

/-- What is known at a place was known at the start or gained at a visible place. -/
theorem scope_iff (r : Remembered isFeature known gain) (m : Place) (level : List Statement)
    (scope : Scope) :
    known (m.scope isFeature level scope) ↔
      known scope ∨ ∃ (a : Place) (s : Statement), a.Visible m ∧
        a.statement? level = some s ∧ gain s (a.scope isFeature level scope) := by
  induction m generalizing level scope with
  | here => simp [Place.scope]
  | next m ih =>
    cases level with
    | nil => simpa [Place.scope] using ih [] scope
    | cons s rest =>
      -- the first statement adds what any place in it gains; the rest is the induction
      rw [Place.scope_next, ih, run_iff r, or_assoc, GainedIn, Place.exists_iff,
        Place.exists_iff (fun a => ∃ t, a.Visible (.next m) ∧ _)]
      simp only [Place.visible_here_next, Place.visible_inside_next, Place.visible_next_iff,
        true_and, Place.statement?, Place.scope, Place.body?_cons _ s rest, List.head?_cons,
        List.tail_cons, Option.elim_some, Place.statement?_nil, reduceCtorEq, false_and,
        exists_false, or_false, or_assoc]
  | inside b m ih =>
    -- from inside a body, only places in the same body are visible at this level
    rw [Place.exists_iff]
    simp only [Place.not_visible_here_inside, Place.not_visible_next_inside,
      Place.visible_inside_iff, false_and, exists_false, false_or, or_false]
    cases entered : Place.body? b level with
    | none =>
      rw [Place.scope, entered, Option.elim_none]
      constructor
      · exact .inl
      · rintro (h | ⟨_, a, t, ⟨rfl, _⟩, found, _⟩)
        · exact h
        · simp [Place.statement?, entered] at found
    | some head =>
      obtain ⟨flow, body⟩ := head
      rw [Place.scope_inside isFeature b m level flow body entered, ih, r.nested]
      constructor
      · rintro (h | ⟨a, t, visible, found, gained⟩)
        · exact .inl h
        · refine .inr ⟨b, a, t, ⟨rfl, visible⟩, ?_, ?_⟩
          · rwa [Place.statement?_inside b a level flow body entered]
          · rwa [Place.scope_inside isFeature b a level flow body entered]
      · rintro (h | ⟨_, a, t, ⟨rfl, visible⟩, found, gained⟩)
        · exact .inl h
        · rw [Place.statement?_inside _ a level flow body entered] at found
          rw [Place.scope_inside isFeature _ a level flow body entered] at gained
          exact .inr ⟨a, t, visible, found, gained⟩

end Remembered
end Variability
