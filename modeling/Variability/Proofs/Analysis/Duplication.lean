import Mathlib.Data.Finset.Card
import Variability.Proofs.Analysis.Event
import Variability.Proofs.Hash.Parts

/-! What makes a script a duplicate. Scripts are told apart by the joined text of
their operations, so a script is a duplicate exactly when a script before it has the
same text. Where no operation has a bar in its name, that is the same operations. -/
namespace Variability
namespace Repeats

@[simp] theorem mem_seen_foldl_iff (ids : List ScriptId) (r : Repeats) (id : ScriptId) :
    id ∈ (ids.foldl record r).seen ↔ id ∈ r.seen ∨ id ∈ ids := by
  induction ids generalizing r with
  | nil => simp
  | cons first rest ih =>
    rw [List.foldl_cons, ih, record, Std.TreeSet.mem_insert, Std.LawfulEqCmp.compare_eq_iff_eq,
      List.mem_cons, eq_comm (a := first), or_assoc, or_left_comm]

@[simp] theorem total_foldl (ids : List ScriptId) (r : Repeats) :
    (ids.foldl record r).total = r.total + ids.length := by
  induction ids generalizing r with
  | nil => rfl
  | cons first rest ih =>
    rw [List.foldl_cons, ih, List.length_cons, Nat.add_comm rest.length, ← Nat.add_assoc]
    rfl

private theorem duplicates_concat (ids : List ScriptId) (id : ScriptId) :
    ((ids ++ [id]).foldl record {}).duplicates =
      (ids.foldl record {}).duplicates + if id ∈ ids then 1 else 0 := by
  have met : (ids.foldl record {}).isRepeat id = true ↔ id ∈ ids := by
    rw [isRepeat, Std.TreeSet.contains_iff_mem, mem_seen_foldl_iff]
    simp
  rw [List.foldl_append, List.foldl_cons, List.foldl_nil, record]
  by_cases known : id ∈ ids
  · rw [if_pos known, if_pos (met.mpr known)]
  · rw [if_neg known, if_neg fun found => known (met.mp found)]
    rfl

theorem duplicates_foldl_add_card (ids : List ScriptId) (r : Repeats) :
    (ids.foldl record r).duplicates + {id ∈ ids.toFinset | id ∉ r.seen}.card =
      r.duplicates + ids.length := by
  induction ids generalizing r with
  | nil => rfl
  | cons first rest ih =>
    have counted := ih (r.record first)
    have seen : ∀ id, id ∉ (r.record first).seen ↔ id ≠ first ∧ id ∉ r.seen := by
      intro id
      rw [record, Std.TreeSet.mem_insert, Std.LawfulEqCmp.compare_eq_iff_eq, not_or, eq_comm]
    simp only [seen] at counted
    rw [List.foldl_cons, List.length_cons, List.toFinset_cons, Finset.filter_insert]
    by_cases met : first ∈ r.seen
    · have same : {id ∈ rest.toFinset | id ≠ first ∧ id ∉ r.seen} =
          {id ∈ rest.toFinset | id ∉ r.seen} := by
        apply Finset.filter_congr
        intro id _
        exact ⟨And.right, fun new => ⟨fun eq => new (eq ▸ met), new⟩⟩
      have raised : (r.record first).duplicates = r.duplicates + 1 :=
        if_pos (Std.TreeSet.contains_iff_mem.mpr met)
      rw [if_neg (not_not_intro met), ← same]
      omega
    · have split : insert first {id ∈ rest.toFinset | id ∉ r.seen} =
          insert first {id ∈ rest.toFinset | id ≠ first ∧ id ∉ r.seen} := by
        ext id
        by_cases eq : id = first <;> simp [eq]
      have kept : (r.record first).duplicates = r.duplicates :=
        if_neg (mt Std.TreeSet.contains_iff_mem.mp met)
      rw [if_pos met, split, Finset.card_insert_of_notMem (by simp)]
      omega

theorem duplicates_add_card (ids : List ScriptId) :
    (ids.foldl record {}).duplicates + ids.toFinset.card = ids.length := by
  simpa using duplicates_foldl_add_card ids {}

end Repeats

/-- Two views that tell the same elements of a list apart show equally many. -/
theorem card_toFinset_map_congr {α β γ : Type} [DecidableEq β] [DecidableEq γ] {f : α → β}
    {g : α → γ} {list : List α} (same : ∀ a ∈ list, ∀ b ∈ list, f a = f b ↔ g a = g b) :
    (list.map f).toFinset.card = (list.map g).toFinset.card := by
  induction list with
  | nil => rfl
  | cons a rest ih =>
    have known : f a ∈ (rest.map f).toFinset ↔ g a ∈ (rest.map g).toFinset := by
      simp only [List.mem_toFinset, List.mem_map]
      refine exists_congr fun b => and_congr_right fun listed => ?_
      exact same b (List.mem_cons_of_mem _ listed) a List.mem_cons_self
    have counted := ih fun b hb c hc =>
      same b (List.mem_cons_of_mem _ hb) c (List.mem_cons_of_mem _ hc)
    simp only [List.map_cons, List.toFinset_cons]
    by_cases met : f a ∈ (rest.map f).toFinset
    · rw [Finset.insert_eq_of_mem met, Finset.insert_eq_of_mem (known.mp met), counted]
    · rw [Finset.card_insert_of_notMem met, Finset.card_insert_of_notMem (mt known.mpr met),
        counted]

namespace Project

def surveyAfter (settings : Settings) (p : Project) (visits : List Visit) : Survey :=
  visits.foldl Survey.visit
    { settings, configured := Configured.collect p.root, discarded := p.discarded }

@[simp] theorem repeats_surveyAfter (settings : Settings) (p : Project) (visits : List Visit) :
    (p.surveyAfter settings visits).repeats =
      (visits.map Visit.scriptId).foldl Repeats.record {} := by
  rw [surveyAfter, Survey.foldl_visit]

theorem duplicateScripts_eq (settings : Settings) (p : Project) :
    (analyzeProject settings p).duplicateScripts =
      ((p.scriptIds settings).foldl Repeats.record {}).duplicates := by
  rw [analyzeProject_eq]
  rfl

theorem totalScripts_eq (settings : Settings) (p : Project) :
    (analyzeProject settings p).totalScripts = (Visit.ofRoot settings p.root).length := by
  rw [analyzeProject_eq]
  simp only [Survey.finish, Repeats.total_foldl, scriptIds, List.length_map]
  exact Nat.zero_add _

/-- The duplicates are the repeats of what a view shows: a visit is counted as one
exactly when a visit before it shows the same, and the others are as many as the
different things shown. -/
structure CountsRepeats (settings : Settings) (p : Project) {α : Type} [DecidableEq α]
    (view : Element → α) : Prop where
  counted : ∀ before v after, Visit.ofRoot settings p.root = before ++ v :: after →
    (p.surveyAfter settings (before ++ [v])).repeats.duplicates =
      (p.surveyAfter settings before).repeats.duplicates +
        if ∃ w ∈ before, view w.script = view v.script then 1 else 0
  all : (analyzeProject settings p).duplicateScripts =
    (p.surveyAfter settings (Visit.ofRoot settings p.root)).repeats.duplicates
  distinct : (analyzeProject settings p).duplicateScripts +
      ((Visit.ofRoot settings p.root).map fun v => view v.script).toFinset.card =
    (analyzeProject settings p).totalScripts

theorem countsRepeats_of_view (settings : Settings) (p : Project) {α : Type} [DecidableEq α]
    (view : Element → α)
    (same : ∀ v ∈ Visit.ofRoot settings p.root, ∀ w ∈ Visit.ofRoot settings p.root,
      v.scriptId = w.scriptId ↔ view v.script = view w.script) :
    p.CountsRepeats settings view where
  counted := by
    intro before v after visits
    have met : v.scriptId ∈ before.map Visit.scriptId ↔
        ∃ w ∈ before, view w.script = view v.script := by
      rw [List.mem_map]
      refine exists_congr fun w => and_congr_right fun earlier => ?_
      exact same w (by simp [visits, earlier]) v (by simp [visits])
    rw [repeats_surveyAfter, repeats_surveyAfter, List.map_append, List.map_singleton,
      Repeats.duplicates_concat]
    simp only [met]
  all := rfl
  distinct := by
    rw [totalScripts_eq, duplicateScripts_eq, ← card_toFinset_map_congr (f := Visit.scriptId) same]
    exact (Repeats.duplicates_add_card _).trans (List.length_map _)

end Project

namespace Element

def selectors (script : Element) : List String :=
  ((script.descendants.filter isBlockLike).map selector).filter (· != "")

/-- Operations are written without blanks around their names. -/
def Tidy (script : Element) : Prop :=
  ∀ node ∈ script.descendants, node.isBlockLike = true → node.selector = (node.attr? "s").getD ""

instance (script : Element) : Decidable script.Tidy :=
  inferInstanceAs (Decidable (∀ node ∈ script.descendants,
    node.isBlockLike = true → node.selector = (node.attr? "s").getD ""))

private theorem empty_not_mem_selectors (script : Element) : "" ∉ script.selectors := by
  simp [selectors]

def joinedSelectors (script : Element) : String := Hash.joined script.selectors

end Element

private theorem operations_of_tidy {script : Element} (tidy : script.Tidy) :
    operations script = script.selectors := by
  have own : ∀ node ∈ script.descendants.filter Element.isBlockLike,
      node.selector = (node.attr? "s").getD "" := by
    intro node listed
    exact tidy node (List.mem_filter.mp listed).1 (List.mem_filter.mp listed).2
  rw [operations, Element.selectors]
  -- node by node: a name that is missing or empty is left out on both sides
  generalize script.descendants.filter Element.isBlockLike = nodes at own ⊢
  induction nodes with
  | nil => rfl
  | cons node rest ih =>
    obtain ⟨first, others⟩ := List.forall_mem_cons.mp own
    rw [List.filterMap_cons, List.map_cons, List.filter_cons, ← ih others, first]
    cases node.attr? "s" with
    | none => rfl
    | some written =>
      rw [Option.filter_some, Option.getD_some]
      cases written != "" <;> rfl

private theorem fingerprint_of_tidy {script : Element} (tidy : script.Tidy) :
    fingerprint script = Hash.hashText script.joinedSelectors := by
  rw [fingerprint, Hash.Parts.digest_ofList, operations_of_tidy tidy]
  rfl

namespace Project

/-- No two visited scripts with different texts have the same hash. -/
def HashedApart (settings : Settings) (p : Project) : Prop :=
  ∀ v ∈ Visit.ofRoot settings p.root, ∀ w ∈ Visit.ofRoot settings p.root,
    Hash.hashText v.script.joinedSelectors = Hash.hashText w.script.joinedSelectors →
      v.script.joinedSelectors = w.script.joinedSelectors

theorem scriptId_eq_iff {settings : Settings} {p : Project}
    (tidy : ∀ v ∈ Visit.ofRoot settings p.root, v.script.Tidy) (apart : p.HashedApart settings)
    {v w : Visit} (hv : v ∈ Visit.ofRoot settings p.root) (hw : w ∈ Visit.ofRoot settings p.root) :
    v.scriptId = w.scriptId ↔ v.script.joinedSelectors = w.script.joinedSelectors := by
  rw [Visit.scriptId, Visit.scriptId, fingerprint_of_tidy (tidy v hv),
    fingerprint_of_tidy (tidy w hw)]
  exact ⟨apart v hv w hw, congrArg Hash.hashText⟩

theorem countsRepeats_joined {settings : Settings} {p : Project}
    (tidy : ∀ v ∈ Visit.ofRoot settings p.root, v.script.Tidy) (apart : p.HashedApart settings) :
    p.CountsRepeats settings Element.joinedSelectors :=
  p.countsRepeats_of_view settings _ fun _ hv _ hw => scriptId_eq_iff tidy apart hv hw

end Project

/-- When the hash tells the texts apart and operations are written without blanks
around their names, the duplicates are the repeats of the joined texts. When no
operation has a bar in its name either, they are the repeats of the operations. -/
theorem analyzeProject_duplicates (settings : Settings) (p : Project)
    (tidy : ∀ v ∈ Visit.ofRoot settings p.root, v.script.Tidy)
    (apart : p.HashedApart settings) :
    p.CountsRepeats settings Element.joinedSelectors ∧
      ((∀ v ∈ Visit.ofRoot settings p.root, ∀ s ∈ v.script.selectors, '|' ∉ s.toList) →
        p.CountsRepeats settings Element.selectors) := by
  refine ⟨Project.countsRepeats_joined tidy apart, fun free => ?_⟩
  apply p.countsRepeats_of_view settings
  intro v hv w hw
  rw [Project.scriptId_eq_iff tidy apart hv hw]
  constructor
  · exact Hash.joined_inj v.script.empty_not_mem_selectors (free v hv)
      w.script.empty_not_mem_selectors (free w hw)
  · exact congrArg Hash.joined

def Element.script (names : List String) : Element :=
  { tag := "script"
    children := names.map fun name => { tag := "block", attributes := [("s", name)] } }

def Project.staged (scripts : List Element) : Project :=
  { root :=
      { tag := "project"
        children :=
          [{ tag := "stage", children := [{ tag := "scripts", children := scripts }] }] } }

/-- The order of operations tells scripts apart: one of these three is a duplicate. -/
theorem analyzeProject_duplicates_in_order :
    let p := Project.staged [.script ["a", "b"], .script ["b", "a"], .script ["a", "b"]]
    (∀ v ∈ Visit.ofRoot {} p.root, v.script.Tidy) ∧ p.HashedApart {} ∧
      p.CountsRepeats {} Element.selectors ∧ (analyzeProject {} p).duplicateScripts = 1 := by
  intro p
  have visits : Visit.ofRoot {} p.root =
      [⟨"Stage", .script ["a", "b"]⟩, ⟨"Stage", .script ["b", "a"]⟩,
        ⟨"Stage", .script ["a", "b"]⟩] := by
    cbv
  have tidy : ∀ v ∈ Visit.ofRoot {} p.root, v.script.Tidy := by
    rw [visits]
    decide +kernel
  have apart : p.HashedApart {} := by
    unfold Project.HashedApart
    rw [visits]
    decide +kernel
  have free : ∀ v ∈ Visit.ofRoot {} p.root, ∀ s ∈ v.script.selectors, '|' ∉ s.toList := by
    rw [visits]
    decide +kernel
  have counts := (analyzeProject_duplicates {} p tidy apart).2 free
  refine ⟨tidy, apart, counts, ?_⟩
  have operations : (Visit.ofRoot {} p.root).map (·.script.selectors) =
      [["a", "b"], ["b", "a"], ["a", "b"]] := by
    rw [visits]
    decide +kernel
  have distinct := counts.distinct
  rw [Project.totalScripts_eq, operations, visits] at distinct
  exact Nat.add_right_cancel distinct

/-- A bar in a name: the two scripts have different operations, and still the second
is counted as a duplicate of the first. -/
theorem analyzeProject_bar_in_name :
    let p := Project.staged [.script ["a|b"], .script ["a", "b"]]
    (∀ v ∈ Visit.ofRoot {} p.root, v.script.Tidy) ∧ p.HashedApart {} ∧
      (Visit.ofRoot {} p.root).map (·.script.selectors) = [["a|b"], ["a", "b"]] ∧
      (analyzeProject {} p).duplicateScripts = 1 ∧
      ¬p.CountsRepeats {} Element.selectors := by
  intro p
  have visits : Visit.ofRoot {} p.root =
      [⟨"Stage", .script ["a|b"]⟩, ⟨"Stage", .script ["a", "b"]⟩] := by
    cbv
  have tidy : ∀ v ∈ Visit.ofRoot {} p.root, v.script.Tidy := by
    rw [visits]
    decide +kernel
  have apart : p.HashedApart {} := by
    unfold Project.HashedApart
    rw [visits]
    decide +kernel
  have operations : (Visit.ofRoot {} p.root).map (·.script.selectors) = [["a|b"], ["a", "b"]] := by
    rw [visits]
    decide +kernel
  have texts : (Visit.ofRoot {} p.root).map (·.script.joinedSelectors) = ["a|b", "a|b"] := by
    rw [visits]
    decide +kernel
  have distinct := (Project.countsRepeats_joined tidy apart).distinct
  rw [Project.totalScripts_eq, texts, visits] at distinct
  have one : (analyzeProject {} p).duplicateScripts = 1 := Nat.add_right_cancel distinct
  refine ⟨tidy, apart, operations, one, fun counts => ?_⟩
  -- by their operations the two scripts would both be new
  have both := counts.distinct
  rw [Project.totalScripts_eq, operations, visits, one] at both
  contradiction

end Variability
