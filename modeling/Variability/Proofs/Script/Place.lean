import Variability.Analysis.Mutation

/-! Places in a script. The scope at a place is what is known when reading gets
there. The changes that a script makes are those at its places, in document
order: none is made twice, and none in a nested body is left out. -/
namespace Variability

/-- A walk along a list of statements: to the first one, past it, or into one of
its bodies. -/
inductive Place where
  | here
  | next (rest : Place)
  | inside (body : Nat) (rest : Place)
  deriving DecidableEq, Repr

namespace Place

/-- The head of the first statement and its body `b`, if it has that body. -/
def body? (b : Nat) : List Statement → Option (ControlFlow × Script)
  | .control flow bodies :: _ => bodies[b]?.map (flow, ·)
  | _ => none

def statement? : Place → List Statement → Option Statement
  | .here, level => level.head?
  | .next p, level => p.statement? level.tail
  | .inside b p, level => (body? b level).bind fun (_, body) => p.statement? body.statements

/-- What is known at a place when the list is read from `scope`. -/
def scope (isFeature : String → Bool) : Place → List Statement → Scope → Scope
  | .here, _, scope => scope
  | .next p, level, scope =>
    p.scope isFeature level.tail (level.head?.elim scope fun s => (s.run isFeature scope).1)
  | .inside b p, level, scope =>
    (body? b level).elim scope fun (flow, body) =>
      p.scope isFeature body.statements (scope.nested (flow.guard? isFeature))

def change? (isFeature : String → Bool) (level : List Statement) (scope : Scope) (p : Place) :
    Option Mutation :=
  match p.statement? level with
  | some (.setAttribute attr target value) =>
    some (.ofSetAttribute (p.scope isFeature level scope) attr target value)
  | _ => none

/-- Document order: a statement comes ahead of what is in its bodies, and all of
that ahead of the statements after it. -/
inductive Before : Place → Place → Prop where
  | here_next (q : Place) : Before .here (.next q)
  | here_inside (b : Nat) (q : Place) : Before .here (.inside b q)
  | inside_next (b : Nat) (p q : Place) : Before (.inside b p) (.next q)
  | bodies {b c : Nat} (p q : Place) : b < c → Before (.inside b p) (.inside c q)
  | inside (b : Nat) {p q : Place} : Before p q → Before (.inside b p) (.inside b q)
  | next {p q : Place} : Before p q → Before (.next p) (.next q)

theorem Before.asymm {p q : Place} (forth : p.Before q) (back : q.Before p) : False := by
  induction forth with
  | here_next => cases back
  | here_inside => cases back
  | inside_next => cases back
  | bodies _ _ lower =>
    cases back with
    | bodies _ _ higher => exact Nat.lt_asymm lower higher
    | inside => exact Nat.lt_irrefl _ lower
  | inside b _ ih =>
    cases back with
    | bodies _ _ lower => exact Nat.lt_irrefl b lower
    | inside _ back => exact ih back
  | next _ ih =>
    cases back with
    | next back => exact ih back

@[simp] theorem body?_nil (b : Nat) : body? b [] = none := rfl

@[simp] theorem body?_control (b : Nat) (flow : ControlFlow) (bodies : List Script)
    (rest : List Statement) :
    body? b (.control flow bodies :: rest) = bodies[b]?.map (flow, ·) := rfl

theorem body?_cons (b : Nat) (s : Statement) (rest : List Statement) :
    body? b (s :: rest) = body? b [s] := by
  cases s <;> rfl

@[simp] theorem statement?_nil (p : Place) : p.statement? [] = none := by
  induction p with
  | here => rfl
  | next p ih => exact ih
  | inside b p => rfl

@[simp] theorem statement?_here (s : Statement) (rest : List Statement) :
    Place.here.statement? (s :: rest) = some s := rfl

@[simp] theorem statement?_next (p : Place) (s : Statement) (rest : List Statement) :
    (Place.next p).statement? (s :: rest) = p.statement? rest := rfl

@[simp] theorem scope_next (isFeature : String → Bool) (p : Place) (s : Statement)
    (rest : List Statement) (scope : Scope) :
    (Place.next p).scope isFeature (s :: rest) scope =
      p.scope isFeature rest (s.run isFeature scope).1 := rfl

theorem statement?_inside (b : Nat) (p : Place) (level : List Statement) (flow : ControlFlow)
    (body : Script) (entered : body? b level = some (flow, body)) :
    (Place.inside b p).statement? level = p.statement? body.statements := by
  rw [statement?, entered, Option.bind_some]

theorem scope_inside (isFeature : String → Bool) (b : Nat) (p : Place) (level : List Statement)
    (flow : ControlFlow) (body : Script) (entered : body? b level = some (flow, body))
    (scope : Scope) :
    (Place.inside b p).scope isFeature level scope =
      p.scope isFeature body.statements (scope.nested (flow.guard? isFeature)) := by
  rw [Place.scope, entered, Option.elim_some]

end Place

mutual
def Statement.places : Statement → List Place
  | .control _ bodies => .here :: Script.bodyPlaces 0 bodies
  | _ => [.here]

def Script.levelPlaces : List Statement → List Place
  | [] => []
  | s :: rest => s.places ++ (Script.levelPlaces rest).map .next

def Script.places : Script → List Place
  | .mk _ statements => Script.levelPlaces statements

def Script.bodyPlaces (b : Nat) : List Script → List Place
  | [] => []
  | body :: rest => body.places.map (.inside b) ++ Script.bodyPlaces (b + 1) rest
end

mutual
theorem Statement.run_changes (isFeature : String → Bool) : ∀ (s : Statement)
    (rest : List Statement) (scope : Scope),
    (s.run isFeature scope).2 = s.places.filterMap (Place.change? isFeature (s :: rest) scope)
  | .define .., _, _ => rfl
  | .assign .., _, _ => rfl
  | .editList _, _, _ => rfl
  | .setAttribute .., _, _ => rfl
  | .other, _, _ => rfl
  | .control flow bodies, rest, scope => by
    simp only [Statement.run, Statement.places]
    rw [List.filterMap_cons_none rfl]
    exact Script.runBranches_changes isFeature bodies 0 flow bodies rest scope scope (by simp)

theorem Script.runStatements_changes (isFeature : String → Bool) :
    ∀ (level : List Statement) (scope : Scope),
    (Script.runStatements isFeature level scope).2 =
      (Script.levelPlaces level).filterMap (Place.change? isFeature level scope)
  | [], _ => rfl
  | s :: rest, scope => by
    simp only [Script.runStatements, Script.levelPlaces, List.filterMap_append, List.filterMap_map]
    rw [Statement.run_changes isFeature s rest, Script.runStatements_changes isFeature rest]
    rfl

theorem Script.run_changes (isFeature : String → Bool) : ∀ (script : Script) (scope : Scope),
    (script.run isFeature scope).2 =
      script.places.filterMap (Place.change? isFeature script.statements scope)
  | .mk _ statements, scope => Script.runStatements_changes isFeature statements scope

theorem Script.runBranches_changes (isFeature : String → Bool) : ∀ (bodies : List Script) (b : Nat)
    (flow : ControlFlow) (all : List Script) (rest : List Statement) (scope known : Scope),
    (∀ k, all[b + k]? = bodies[k]?) →
    (Script.runBranches isFeature (scope.nested (flow.guard? isFeature)) bodies known).2 =
      (Script.bodyPlaces b bodies).filterMap
        (Place.change? isFeature (.control flow all :: rest) scope)
  | [], _, _, _, _, _, _, _ => rfl
  | body :: more, b, flow, all, rest, scope, known, numbered => by
    -- the bodies still to come are numbered from `b` on, so the induction carries the whole list
    simp only [Script.runBranches, Script.bodyPlaces, List.filterMap_append, List.filterMap_map]
    have first : all[b]? = some body := numbered 0
    rw [Script.run_changes isFeature body,
      Script.runBranches_changes isFeature more (b + 1) flow all rest scope _ ?_]
    · have same : Place.change? isFeature (.control flow all :: rest) scope ∘ Place.inside b =
          Place.change? isFeature body.statements (scope.nested (flow.guard? isFeature)) := by
        funext p
        simp [Place.change?, Place.statement?, Place.scope, first]
      rw [same]
    · intro k
      rw [show b + 1 + k = b + (k + 1) by omega, numbered (k + 1)]
      rfl
end

/-- The changes that a script makes by itself are those at its places. -/
theorem Script.mutations_eq (isFeature : String → Bool) (script : Script) :
    script.mutations isFeature =
      script.places.filterMap (Place.change? isFeature script.statements {}) :=
  Script.run_changes isFeature script {}

mutual
theorem Statement.mem_places (p : Place) : ∀ (s : Statement),
    p ∈ s.places ↔ (p.statement? [s]).isSome
  | .define .. | .assign .. | .editList _ | .setAttribute .. | .other => by
    cases p <;> simp [Statement.places, Place.statement?, Place.body?]
  | .control flow bodies => by
    simp only [Statement.places, List.mem_cons]
    rw [Script.mem_bodyPlaces p bodies]
    cases p with
    | here => simp
    | next p => simp
    | inside b q =>
      simp only [reduceCtorEq, false_or, Nat.zero_add, Place.inside.injEq, Place.statement?,
        Place.body?_control]
      constructor
      · rintro ⟨_, _, ⟨rfl, rfl⟩, body, found, reached⟩
        rw [Option.mem_def.mp found]
        exact reached
      · intro reached
        cases found : bodies[b]? with
        | none => simp [found] at reached
        | some body => exact ⟨b, q, ⟨rfl, rfl⟩, body, found, by simpa [found] using reached⟩

theorem Script.mem_levelPlaces (p : Place) : ∀ (level : List Statement),
    p ∈ Script.levelPlaces level ↔ (p.statement? level).isSome
  | [] => by simp [Script.levelPlaces]
  | s :: rest => by
    simp only [Script.levelPlaces, List.mem_append, List.mem_map]
    rw [Statement.mem_places p s]
    cases p with
    | here => simp
    | next q =>
      have ih := Script.mem_levelPlaces q rest
      simp [ih]
    | inside b q => simp [Place.statement?, Place.body?_cons b s rest]

theorem Script.mem_places (p : Place) : ∀ (script : Script),
    p ∈ script.places ↔ (p.statement? script.statements).isSome
  | .mk _ statements => Script.mem_levelPlaces p statements

theorem Script.mem_bodyPlaces (p : Place) : ∀ (bodies : List Script) (b : Nat),
    p ∈ Script.bodyPlaces b bodies ↔
      ∃ k q, p = .inside (b + k) q ∧ ∃ body ∈ bodies[k]?, (q.statement? body.statements).isSome
  | [], _ => by simp [Script.bodyPlaces]
  | body :: rest, b => by
    simp only [Script.bodyPlaces, List.mem_append, List.mem_map]
    rw [Script.mem_bodyPlaces p rest (b + 1)]
    constructor
    · rintro (⟨q, reached, rfl⟩ | ⟨k, q, rfl, found⟩)
      · exact ⟨0, q, rfl, body, rfl, (Script.mem_places q body).mp reached⟩
      · exact ⟨k + 1, q, by rw [Nat.add_assoc, Nat.add_comm 1 k], found⟩
    · rintro ⟨k, q, rfl, other, found, reached⟩
      cases k with
      | zero =>
        cases found
        exact Or.inl ⟨q, (Script.mem_places q body).mpr reached, rfl⟩
      | succ k =>
        exact Or.inr ⟨k, q, by rw [Nat.add_assoc, Nat.add_comm 1 k], other, found, reached⟩
end

theorem Script.change?_of_reached (isFeature : String → Bool) (script : Script) (m : Place)
    {attr : String} {target value : Element}
    (reached : m.statement? script.statements = some (.setAttribute attr target value)) :
    m ∈ script.places ∧ Place.change? isFeature script.statements {} m =
      some (.ofSetAttribute (m.scope isFeature script.statements {}) attr target value) := by
  constructor
  · rw [Script.mem_places, reached]
    rfl
  · rw [Place.change?, reached]

mutual
theorem Statement.places_pairwise : ∀ (s : Statement), s.places.Pairwise Place.Before
  | .define .. | .assign .. | .editList _ | .setAttribute .. | .other => by
    simp [Statement.places]
  | .control flow bodies => by
    simp only [Statement.places, List.pairwise_cons]
    refine ⟨?_, Script.bodyPlaces_pairwise bodies 0⟩
    intro p reached
    obtain ⟨k, q, rfl, _⟩ := (Script.mem_bodyPlaces p bodies 0).mp reached
    exact .here_inside _ q

theorem Script.levelPlaces_pairwise : ∀ (level : List Statement),
    (Script.levelPlaces level).Pairwise Place.Before
  | [] => .nil
  | s :: rest => by
    simp only [Script.levelPlaces, List.pairwise_append, List.pairwise_map]
    refine ⟨Statement.places_pairwise s, ?_, ?_⟩
    · exact (Script.levelPlaces_pairwise rest).imp fun h => .next h
    · intro p reached q later
      obtain ⟨q, _, rfl⟩ := List.mem_map.mp later
      rw [Statement.mem_places] at reached
      cases p with
      | here => exact .here_next q
      | next p => simp at reached
      | inside b p => exact .inside_next b p q

theorem Script.places_pairwise : ∀ (script : Script), script.places.Pairwise Place.Before
  | .mk _ statements => Script.levelPlaces_pairwise statements

theorem Script.bodyPlaces_pairwise : ∀ (bodies : List Script) (b : Nat),
    (Script.bodyPlaces b bodies).Pairwise Place.Before
  | [], _ => .nil
  | body :: rest, b => by
    simp only [Script.bodyPlaces, List.pairwise_append, List.pairwise_map]
    refine ⟨?_, Script.bodyPlaces_pairwise rest (b + 1), ?_⟩
    · exact (Script.places_pairwise body).imp fun h => .inside b h
    · intro p reached q later
      obtain ⟨p, _, rfl⟩ := List.mem_map.mp reached
      obtain ⟨k, q, rfl, _⟩ := (Script.mem_bodyPlaces q rest (b + 1)).mp later
      exact .bodies p q (by omega)
end

end Variability
