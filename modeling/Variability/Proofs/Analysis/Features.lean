import Variability.Proofs.Analysis.Event
import Variability.Proofs.Feature.Configured
import Variability.Proofs.Feature.Usage

/-! What the feature metrics of a project mean. They are told by the visited scripts
alone: which configured variables each script reads, and its fingerprint. -/
namespace Variability

@[simp] theorem Usage.uses_foldl_recordReads_iff (c : Configured) (visits : List Visit) (u : Usage)
    (id : ScriptId) (n : String) :
    (visits.foldl (·.recordReads c ·) u).Uses id n ↔
      u.Uses id n ∨ ∃ v ∈ visits, v.scriptId = id ∧ n ∈ c.readBy v.script := by
  induction visits generalizing u with
  | nil => simp
  | cons v rest ih =>
    rw [List.foldl_cons, ih, recordReads, uses_record_iff]
    simp only [List.mem_cons, exists_eq_or_imp, or_assoc]

private theorem Usage.Tight.foldl_recordReads (c : Configured) (visits : List Visit) {u : Usage}
    (tight : u.Tight) : (visits.foldl (·.recordReads c ·) u).Tight := by
  induction visits generalizing u with
  | nil => exact tight
  | cons v rest ih => exact ih (tight.record v.scriptId (c.readBy v.script))

namespace Project

theorem tight_usage (settings : Settings) (p : Project) : (p.usage settings).Tight :=
  Usage.tight_empty.foldl_recordReads _ _

@[simp] theorem uses_usage_iff (settings : Settings) (p : Project) (id : ScriptId) (n : String) :
    (p.usage settings).Uses id n ↔
      n ∈ (Configured.collect p.root).names ∧
        ∃ v ∈ Visit.ofRoot settings p.root, v.scriptId = id ∧ v.script.Reads n := by
  rw [usage, Usage.uses_foldl_recordReads_iff]
  simp only [Usage.not_uses_empty, false_or, Configured.mem_readBy_iff]
  constructor
  · rintro ⟨v, visited, same, known, read⟩
    exact ⟨known, v, visited, same, read⟩
  · rintro ⟨known, v, visited, same, read⟩
    exact ⟨v, visited, same, known, read⟩

end Project

section Metrics
variable (settings : Settings) (p : Project)

theorem analyzeProject_tangling :
    (analyzeProject settings p).tangling = (p.usage settings).tangling := by
  rw [analyzeProject_eq]
  rfl

theorem analyzeProject_scattering :
    (analyzeProject settings p).scattering = (p.usage settings).scattering := by
  rw [analyzeProject_eq]
  rfl

@[simp] theorem mem_analyzeProject_deadFeatures_iff (n : String) :
    n ∈ (analyzeProject settings p).deadFeatures ↔
      n ∈ (Configured.collect p.root).names ∧ n ∉ (analyzeProject settings p).scattering := by
  rw [analyzeProject_scattering, analyzeProject_eq]
  exact mem_deadFeatures_iff _ _ n

@[simp] theorem mem_analyzeProject_scattering_iff (n : String) :
    n ∈ (analyzeProject settings p).scattering ↔
      n ∈ (Configured.collect p.root).names ∧
        ∃ v ∈ Visit.ofRoot settings p.root, v.script.Reads n := by
  rw [analyzeProject_scattering, Usage.mem_scattering_iff]
  simp only [Project.uses_usage_iff]
  constructor
  · rintro ⟨_, known, v, visited, _, read⟩
    exact ⟨known, v, visited, read⟩
  · rintro ⟨known, v, visited, read⟩
    exact ⟨v.scriptId, known, v, visited, rfl, read⟩

theorem mem_scattered_iff {n : String} {ids : Std.TreeSet ScriptId}
    (found : (analyzeProject settings p).scattering[n]? = some ids) (id : ScriptId) :
    id ∈ ids ↔
      ∃ v ∈ Visit.ofRoot settings p.root, v.script.Reads n ∧ fingerprint v.script = id := by
  have listed : n ∈ (analyzeProject settings p).scattering := by
    rw [Std.TreeMap.mem_iff_isSome_getElem?, found]
    rfl
  have known := ((mem_analyzeProject_scattering_iff settings p n).mp listed).1
  have members := Usage.mem_getD_scattering_iff (p.usage settings) n id
  rw [← analyzeProject_scattering, found, Option.getD_some, Project.uses_usage_iff] at members
  rw [members]
  constructor
  · rintro ⟨_, v, visited, same, read⟩
    exact ⟨v, visited, read, same⟩
  · rintro ⟨v, visited, read, same⟩
    exact ⟨known, v, visited, same, read⟩

@[simp] theorem mem_analyzeProject_tangling_iff (id : ScriptId) :
    id ∈ (analyzeProject settings p).tangling ↔
      ∃ v ∈ Visit.ofRoot settings p.root, fingerprint v.script = id ∧
        ∃ n ∈ (Configured.collect p.root).names, v.script.Reads n := by
  rw [analyzeProject_tangling, Usage.mem_tangling_iff (p.tight_usage settings)]
  simp only [Project.uses_usage_iff]
  constructor
  · rintro ⟨n, known, v, visited, same, read⟩
    exact ⟨v, visited, same, n, known, read⟩
  · rintro ⟨v, visited, same, n, known, read⟩
    exact ⟨n, known, v, visited, same, read⟩

theorem analyzeProject_tangling_eq_ncard {id : ScriptId} {count : Nat}
    (found : (analyzeProject settings p).tangling[id]? = some count) :
    count =
      {n | n ∈ (Configured.collect p.root).names ∧
        ∃ v ∈ Visit.ofRoot settings p.root,
          fingerprint v.script = id ∧ v.script.Reads n}.ncard := by
  rw [analyzeProject_tangling] at found
  rw [Usage.tangling_eq_ncard found]
  simp only [Project.uses_usage_iff]
  rfl

end Metrics

/-- A feature is scattered over the fingerprints of the scripts that read it, a
fingerprint is tangled with the features that scripts of that fingerprint read, and
the dead features are those that no script reads. -/
theorem analyzeProject_features (settings : Settings) (p : Project) :
    let visits := Visit.ofRoot settings p.root
    let configured := (Configured.collect p.root).names
    let result := analyzeProject settings p
    (∀ n, n ∈ result.scattering ↔ n ∈ configured ∧ ∃ v ∈ visits, v.script.Reads n) ∧
      (∀ (n : String) (ids : Std.TreeSet ScriptId), result.scattering[n]? = some ids →
        ∀ id, id ∈ ids ↔ ∃ v ∈ visits, v.script.Reads n ∧ fingerprint v.script = id) ∧
      (∀ id, id ∈ result.tangling ↔
        ∃ v ∈ visits, fingerprint v.script = id ∧ ∃ n ∈ configured, v.script.Reads n) ∧
      (∀ (id : ScriptId) (count : Nat), result.tangling[id]? = some count →
        count =
          {n | n ∈ configured ∧ ∃ v ∈ visits, fingerprint v.script = id ∧ v.script.Reads n}.ncard) ∧
      (∀ n, n ∈ result.deadFeatures ↔ n ∈ configured ∧ ∀ v ∈ visits, ¬v.script.Reads n) ∧
      (∀ n, ¬(n ∈ result.deadFeatures ∧ n ∈ result.scattering)) ∧
      (∀ n, n ∈ result.deadFeatures ∨ n ∈ result.scattering ↔ n ∈ configured) := by
  intro visits configured result
  have scattered := mem_analyzeProject_scattering_iff settings p
  have dead := mem_analyzeProject_deadFeatures_iff settings p
  refine ⟨scattered, fun n ids => mem_scattered_iff settings p,
    mem_analyzeProject_tangling_iff settings p,
    fun id count => analyzeProject_tangling_eq_ncard settings p, ?_, ?_, ?_⟩
  · intro n
    rw [dead, scattered]
    constructor
    · rintro ⟨known, unread⟩
      exact ⟨known, fun v visited read => unread ⟨known, v, visited, read⟩⟩
    · rintro ⟨known, unread⟩
      exact ⟨known, fun ⟨_, v, visited, read⟩ => unread v visited read⟩
  · rintro n ⟨unread, read⟩
    exact ((dead n).mp unread).2 read
  · intro n
    rw [dead]
    constructor
    · rintro (⟨known, _⟩ | read)
      · exact known
      · exact ((scattered n).mp read).1
    · intro known
      by_cases read : n ∈ result.scattering
      · exact Or.inr read
      · exact Or.inl ⟨known, read⟩

end Variability
