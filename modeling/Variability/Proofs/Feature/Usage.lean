import Mathlib.Data.Set.Card
import Variability.Feature.Usage

/-! What a usage holds, as a relation between fingerprints and features. The two
metrics are the two ways to read it: tangling counts the features of a fingerprint,
scattering collects the fingerprints of a feature. -/
namespace Variability

section Members
variable {α : Type} [Ord α] [Std.TransOrd α] [Std.LawfulEqOrd α]

theorem nodup_toList (set : Std.TreeSet α) : set.toList.Nodup :=
  Std.TreeSet.distinct_toList.imp fun different same =>
    different (Std.LawfulEqCmp.compare_eq_iff_eq.mpr same)

private theorem size_eq_length {set : Std.TreeSet α} {listed : List α} (distinct : listed.Nodup)
    (same : ∀ a, a ∈ set ↔ a ∈ listed) : set.size = listed.length := by
  rw [← Std.TreeSet.length_toList]
  apply List.Perm.length_eq
  rw [List.perm_ext_iff_of_nodup (nodup_toList set) distinct]
  intro a
  rw [Std.TreeSet.mem_toList, same]

end Members

theorem NameSet.size_eq_ncard (names : NameSet) : names.size = {n | n ∈ names}.ncard := by
  have listed : {n | n ∈ names} = ↑names.toList.toFinset := by
    ext n
    simp
  rw [listed, Set.ncard_coe_finset, List.toFinset_card_of_nodup (nodup_toList names),
    Std.TreeSet.length_toList]

private theorem getElem?_alter_getD {α β : Type} [Ord α] [Std.TransOrd α] [Std.LawfulEqOrd α]
    [DecidableEq α] (map : Std.TreeMap α β) (key : α) (default : β) (update : β → β) (other : α) :
    (map.alter key fun old => some (update (old.getD default)))[other]? =
      if key = other then some (update (map[other]?.getD default)) else map[other]? := by
  simp only [Std.TreeMap.getElem?_alter, Std.LawfulEqCmp.compare_eq_iff_eq]
  by_cases same : key = other
  · rw [if_pos same, if_pos same, same]
  · rw [if_neg same, if_neg same]

namespace Usage

def Uses (u : Usage) (id : ScriptId) (feature : String) : Prop :=
  ∃ features, u.byScript[id]? = some features ∧ feature ∈ features

/-- No fingerprint is kept without a feature. -/
def Tight (u : Usage) : Prop :=
  ∀ (id : ScriptId) (features : NameSet),
    u.byScript[id]? = some features → ∃ feature, feature ∈ features

@[simp] theorem not_uses_empty (id : ScriptId) (feature : String) : ¬Uses {} id feature := by
  simp [Uses]

theorem tight_empty : Tight {} := by
  simp [Tight]

theorem getElem?_record (u : Usage) (id : ScriptId) (features : List String) (other : ScriptId)
    (read : features ≠ []) :
    (u.record id features).byScript[other]? =
      if id = other then some ((u.byScript[other]?.getD {}).insertMany features)
      else u.byScript[other]? := by
  rw [record, if_neg (by simpa using read)]
  exact getElem?_alter_getD u.byScript id {} (·.insertMany features) other

@[simp]
theorem uses_record_iff (u : Usage) (id : ScriptId) (features : List String) (other : ScriptId)
    (feature : String) :
    (u.record id features).Uses other feature ↔
      u.Uses other feature ∨ id = other ∧ feature ∈ features := by
  by_cases read : features = []
  · simp [record, read]
  · unfold Uses
    rw [getElem?_record u id features other read]
    by_cases same : id = other
    · cases u.byScript[other]? <;> simp [same]
    · simp [same]

theorem Tight.record {u : Usage} (tight : u.Tight) (id : ScriptId) (features : List String) :
    (u.record id features).Tight := by
  by_cases read : features = []
  · simpa [Usage.record, read] using tight
  · intro other found known
    rw [getElem?_record u id features other read] at known
    split at known
    · obtain ⟨feature, listed⟩ := List.exists_mem_of_ne_nil features read
      refine ⟨feature, ?_⟩
      rw [← Option.some.inj known]
      simp [listed]
    · exact tight other found known

private theorem mem_byScript_iff {u : Usage} (tight : u.Tight) (id : ScriptId) :
    id ∈ u.byScript ↔ ∃ feature, u.Uses id feature := by
  rw [Std.TreeMap.mem_iff_isSome_getElem?, Option.isSome_iff_exists]
  constructor
  · rintro ⟨features, known⟩
    obtain ⟨feature, listed⟩ := tight id features known
    exact ⟨feature, features, known, listed⟩
  · rintro ⟨feature, features, known, _⟩
    exact ⟨features, known⟩

theorem mem_tangling_iff {u : Usage} (tight : u.Tight) (id : ScriptId) :
    id ∈ u.tangling ↔ ∃ feature, u.Uses id feature := by
  rw [tangling, Std.TreeMap.mem_map, mem_byScript_iff tight]

theorem tangling_eq_ncard {u : Usage} {id : ScriptId} {n : Nat} (found : u.tangling[id]? = some n) :
    n = {feature | u.Uses id feature}.ncard := by
  rw [tangling, Std.TreeMap.getElem?_map, Option.map_eq_some_iff] at found
  obtain ⟨features, known, rfl⟩ := found
  rw [NameSet.size_eq_ncard]
  simp [Uses, known]

def pairs (u : Usage) : List (ScriptId × String) :=
  u.byScript.toList.flatMap fun entry => entry.2.toList.map (Prod.mk entry.1)

@[simp] theorem mem_pairs_iff (u : Usage) (id : ScriptId) (feature : String) :
    (id, feature) ∈ u.pairs ↔ u.Uses id feature := by
  simp only [pairs, List.mem_flatMap, List.mem_map, Prod.mk.injEq, Std.TreeSet.mem_toList, Uses,
    Prod.exists, Std.TreeMap.mem_toList_iff_getElem?_eq_some]
  constructor
  · rintro ⟨_, features, known, _, listed, rfl, rfl⟩
    exact ⟨features, known, listed⟩
  · rintro ⟨features, known, listed⟩
    exact ⟨id, features, known, feature, listed, rfl, rfl⟩

private theorem nodup_pairs (u : Usage) : u.pairs.Nodup := by
  rw [pairs, List.nodup_flatMap]
  refine ⟨fun entry _ => (nodup_toList entry.2).map (Prod.mk_right_injective entry.1), ?_⟩
  apply Std.TreeMap.distinct_keys_toList.imp
  intro entry other different pair listed also
  obtain ⟨_, _, rfl⟩ := List.mem_map.mp listed
  obtain ⟨_, _, same⟩ := List.mem_map.mp also
  exact different (Std.LawfulEqCmp.compare_eq_iff_eq.mpr (congrArg Prod.fst same).symm)

def scatterPair (s : Scattering) (pair : ScriptId × String) : Scattering :=
  scatter pair.1 s pair.2

private theorem scattering_eq_foldl (u : Usage) : u.scattering = u.pairs.foldl scatterPair {} := by
  simp only [scattering, pairs, Std.TreeMap.foldl_eq_foldl_toList,
    Std.TreeSet.foldl_eq_foldl_toList, List.foldl_flatMap, List.foldl_map, scatterPair]

@[simp] theorem getElem?_scatterPair (s : Scattering) (pair : ScriptId × String) (name : String) :
    (scatterPair s pair)[name]? =
      if pair.2 = name then some ((s[name]?.getD {}).insert pair.1) else s[name]? :=
  getElem?_alter_getD s pair.2 {} (·.insert pair.1) name

@[simp] theorem mem_foldl_scatterPair_iff (pairs : List (ScriptId × String)) (s : Scattering)
    (name : String) :
    name ∈ pairs.foldl scatterPair s ↔ name ∈ s ∨ ∃ id, (id, name) ∈ pairs := by
  induction pairs generalizing s with
  | nil => simp
  | cons pair rest ih =>
    rw [List.foldl_cons, ih, Std.TreeMap.mem_iff_isSome_getElem?, getElem?_scatterPair,
      Std.TreeMap.mem_iff_isSome_getElem?]
    obtain ⟨first, feature⟩ := pair
    by_cases same : feature = name
    · simp [same]
    · simp [same, Ne.symm same]

private theorem mem_getD_foldl_scatterPair_iff (pairs : List (ScriptId × String)) (s : Scattering)
    (name : String) (id : ScriptId) :
    id ∈ (pairs.foldl scatterPair s)[name]?.getD {} ↔
      id ∈ s[name]?.getD {} ∨ (id, name) ∈ pairs := by
  induction pairs generalizing s with
  | nil => simp
  | cons pair rest ih =>
    rw [List.foldl_cons, ih, getElem?_scatterPair]
    obtain ⟨first, feature⟩ := pair
    by_cases same : feature = name
    · simp only [same, if_true, Option.getD_some, Std.TreeSet.mem_insert,
        Std.LawfulEqCmp.compare_eq_iff_eq, List.mem_cons, Prod.mk.injEq, and_true]
      rw [eq_comm (a := first), or_assoc, or_left_comm]
    · simp [same, Ne.symm same]

@[simp] theorem mem_scattering_iff (u : Usage) (name : String) :
    name ∈ u.scattering ↔ ∃ id, u.Uses id name := by
  rw [scattering_eq_foldl, mem_foldl_scatterPair_iff]
  simp

@[simp] theorem mem_getD_scattering_iff (u : Usage) (name : String) (id : ScriptId) :
    id ∈ u.scattering[name]?.getD {} ↔ u.Uses id name := by
  rw [scattering_eq_foldl, mem_getD_foldl_scatterPair_iff]
  simp

theorem size_getD_scattering (u : Usage) (name : String) :
    (u.scattering[name]?.getD {}).size = (u.pairs.map Prod.snd).count name := by
  have distinct : ((u.pairs.filter (·.2 == name)).map Prod.fst).Nodup := by
    apply List.Nodup.map_on _ (u.nodup_pairs.filter _)
    intro pair listed other also same
    have left := (List.mem_filter.mp listed).2
    have right := (List.mem_filter.mp also).2
    exact Prod.ext same ((beq_iff_eq.mp left).trans (beq_iff_eq.mp right).symm)
  rw [size_eq_length distinct, List.length_map, ← List.countP_eq_length_filter, List.count,
    List.countP_map]
  · rfl
  · intro id
    rw [mem_getD_scattering_iff, ← mem_pairs_iff]
    simp

end Usage

@[simp] theorem mem_deadFeatures_iff (configured : List String) (s : Scattering) (name : String) :
    name ∈ deadFeatures configured s ↔ name ∈ configured ∧ name ∉ s := by
  rw [deadFeatures, Std.TreeSet.mem_ofList, List.contains_iff_mem, List.mem_filter,
    Bool.not_eq_true', ← Bool.not_eq_true, Std.TreeMap.contains_iff_mem]

end Variability
