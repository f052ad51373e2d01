import Variability.Proofs.Analysis.Library

/-! The order of visits does not matter. What a survey holds about a block depends on
the block's changes, what it holds about repeats on the number of fingerprints that are
new, and what it holds about features on who reads what; none of that sees an order.
Only unknown events are listed as they come. -/
namespace Variability

/-- Two results that differ in the order of the unknown events at most. Maps and sets
are compared by their entries. -/
structure Analysis.Agrees (a b : Analysis) : Prop where
  projectLevel : a.projectLevel = b.projectLevel
  blocks : a.blocks.toList = b.blocks.toList
  unknownEvents : a.unknownEvents.Perm b.unknownEvents
  totalScripts : a.totalScripts = b.totalScripts
  duplicateScripts : a.duplicateScripts = b.duplicateScripts
  duplicationRatio : a.duplicationRatio = b.duplicationRatio
  totalCombinations : a.totalCombinations = b.totalCombinations
  tangling : a.tangling.toList = b.tangling.toList
  scattering : a.scattering.toList.map (fun entry => (entry.1, entry.2.toList)) =
    b.scattering.toList.map (fun entry => (entry.1, entry.2.toList))
  deadFeatures : a.deadFeatures.toList = b.deadFeatures.toList
  configured : a.configured = b.configured
  discarded : a.discarded = b.discarded

namespace Level

private theorem max_right_comm (a b c : Level) : max (max a b) c = max (max a c) b := by
  apply toNat_inj
  simp only [toNat_max]
  omega

theorem highest_perm {levels others : List Level} (perm : levels.Perm others) :
    highest levels = highest others :=
  perm.foldl_eq' (fun a _ b _ start => max_right_comm start a b) _

end Level

private theorem counter_add_right_comm (a b c : UInt32) : a + b + c = a + c + b := by
  rw [UInt32.add_assoc, UInt32.add_comm b, ← UInt32.add_assoc]

theorem BlockStats.record_right_comm (s : BlockStats) (m n : Mutation) :
    (s.record m).record n = (s.record n).record m := by
  unfold record
  cases m.isDefinition <;> cases n.isDefinition <;>
    simp only [if_true, Bool.false_eq_true, if_false, recordStructural, recordDefinition,
      Level.max_right_comm s.level, Level.max_right_comm s.definitionLevel,
      counter_add_right_comm]

namespace Event
variable {events others : List Event} (perm : events.Perm others)
include perm

theorem toList_foldl_count_perm (blocks : Blocks) :
    (events.foldl count blocks).toList = (others.foldl count blocks).toList := by
  apply Std.TreeMap.Equiv.toList_eq
  apply Std.TreeMap.Equiv.of_forall_constGet?_eq
  intro key
  have changes : (changesOf key events).Perm (changesOf key others) := (perm.filter _).map _
  rw [getElem?_foldl_count, getElem?_foldl_count]
  apply changes.foldl_eq'
  intro m _ n _ stats
  exact congrArg some ((stats.getD {}).record_right_comm m n)

private theorem listed_perm (settings : Settings) :
    (listed settings events).Perm (listed settings others) := by
  unfold listed
  split
  · exact (perm.filter _).map _
  · exact .nil

end Event

private theorem projectLevel_congr {blocks more : Blocks} {unknown events : List UnknownEvent}
    (same : blocks.toList = more.toList) (perm : unknown.Perm events) :
    projectLevel blocks unknown = projectLevel more events := by
  unfold projectLevel
  rw [values_eq_map_toList, values_eq_map_toList, same]
  exact Level.highest_perm ((perm.map _).append_left _)

private theorem toList_map_congr {α β γ : Type} [Ord α] [Std.TransOrd α] [Std.LawfulEqOrd α]
    {map other : Std.TreeMap α β} (f : β → γ) (keys : ∀ key, key ∈ map ↔ key ∈ other)
    (same : ∀ (key : α) (a b : β), map[key]? = some a → other[key]? = some b → f a = f b) :
    map.toList.map (fun entry => (entry.1, f entry.2)) =
      other.toList.map (fun entry => (entry.1, f entry.2)) := by
  have shown : ∀ m : Std.TreeMap α β,
      m.toList.map (fun entry => (entry.1, f entry.2)) = (m.map fun _ => f).toList := by
    intro m
    rw [Std.TreeMap.toList_map]
  rw [shown, shown]
  apply Std.TreeMap.Equiv.toList_eq
  apply Std.TreeMap.Equiv.of_forall_constGet?_eq
  intro key
  have kept := keys key
  rw [Std.TreeMap.mem_iff_isSome_getElem?, Std.TreeMap.mem_iff_isSome_getElem?] at kept
  rw [Std.TreeMap.getElem?_map, Std.TreeMap.getElem?_map]
  cases left : map[key]? with
  | none =>
    rw [left, Option.isSome_none] at kept
    rw [Option.not_isSome_iff_eq_none.mp (mt kept.mpr Bool.false_ne_true)]
  | some a =>
    rw [left] at kept
    obtain ⟨b, right⟩ := Option.isSome_iff_exists.mp (kept.mp rfl)
    rw [right]
    exact congrArg some (same key a b left right)

namespace Usage

structure Alike (u w : Usage) : Prop where
  kept : ∀ id, id ∈ u.byScript ↔ id ∈ w.byScript
  uses : ∀ id n, u.Uses id n ↔ w.Uses id n

private theorem mem_byScript_record_iff (u : Usage) (id : ScriptId) (features : List String)
    (other : ScriptId) :
    other ∈ (u.record id features).byScript ↔
      other ∈ u.byScript ∨ id = other ∧ features ≠ [] := by
  by_cases read : features = []
  · simp [record, read]
  · rw [Std.TreeMap.mem_iff_isSome_getElem?, getElem?_record u id features other read,
      Std.TreeMap.mem_iff_isSome_getElem?]
    by_cases same : id = other
    · simp [same, read]
    · simp [same]

theorem mem_byScript_foldl_recordReads_iff (c : Configured) (visits : List Visit) (u : Usage)
    (id : ScriptId) :
    id ∈ (visits.foldl (·.recordReads c ·) u).byScript ↔
      id ∈ u.byScript ∨ ∃ v ∈ visits, v.scriptId = id ∧ c.readBy v.script ≠ [] := by
  induction visits generalizing u with
  | nil => simp
  | cons v rest ih =>
    rw [List.foldl_cons, ih, recordReads, mem_byScript_record_iff]
    simp only [List.mem_cons, exists_eq_or_imp, or_assoc]

theorem alike_foldl_recordReads (c : Configured) {visits others : List Visit}
    (perm : visits.Perm others) (u : Usage) :
    Alike (visits.foldl (·.recordReads c ·) u) (others.foldl (·.recordReads c ·) u) where
  kept id := by
    rw [mem_byScript_foldl_recordReads_iff, mem_byScript_foldl_recordReads_iff]
    simp only [perm.mem_iff]
  uses id n := by
    rw [uses_foldl_recordReads_iff, uses_foldl_recordReads_iff]
    simp only [perm.mem_iff]

section Metrics
variable {u w : Usage} (alike : u.Alike w)
include alike

theorem Alike.toList_tangling : u.tangling.toList = w.tangling.toList := by
  rw [tangling, tangling, Std.TreeMap.toList_map, Std.TreeMap.toList_map]
  apply toList_map_congr Std.TreeSet.size alike.kept
  intro id features others left right
  rw [NameSet.size_eq_ncard, NameSet.size_eq_ncard]
  have reads : ∀ n, n ∈ features ↔ n ∈ others := by
    intro n
    have uses := alike.uses id n
    rw [Uses, Uses, left, right] at uses
    simpa using uses
  simp only [reads]

theorem Alike.mem_scattering_iff (n : String) : n ∈ u.scattering ↔ n ∈ w.scattering := by
  rw [Usage.mem_scattering_iff, Usage.mem_scattering_iff]
  simp only [alike.uses]

theorem Alike.toList_scattering :
    u.scattering.toList.map (fun entry => (entry.1, entry.2.toList)) =
      w.scattering.toList.map (fun entry => (entry.1, entry.2.toList)) := by
  apply toList_map_congr Std.TreeSet.toList alike.mem_scattering_iff
  intro n ids others left right
  apply Std.TreeSet.Equiv.toList_eq
  apply Std.TreeSet.Equiv.of_forall_mem_iff
  intro id
  have members := mem_getD_scattering_iff u n id
  rw [alike.uses, ← mem_getD_scattering_iff, left, right] at members
  exact members

theorem Alike.toList_deadFeatures (configured : List String) :
    (deadFeatures configured u.scattering).toList =
      (deadFeatures configured w.scattering).toList := by
  apply Std.TreeSet.Equiv.toList_eq
  apply Std.TreeSet.Equiv.of_forall_mem_iff
  intro n
  rw [mem_deadFeatures_iff, mem_deadFeatures_iff, alike.mem_scattering_iff]

end Metrics
end Usage

theorem Repeats.duplicates_foldl_perm {ids others : List ScriptId} (perm : ids.Perm others)
    (r : Repeats) : (ids.foldl record r).duplicates = (others.foldl record r).duplicates := by
  have left := duplicates_foldl_add_card ids r
  have right := duplicates_foldl_add_card others r
  rw [List.toFinset_eq_of_perm ids others perm, perm.length_eq] at left
  omega

namespace Survey

/-- Visits in another order leave a survey that finishes alike, whatever was visited
before. -/
theorem finish_foldl_visit_perm (s : Survey) {visits others : List Visit}
    (perm : visits.Perm others) :
    (visits.foldl visit s).finish.Agrees (others.foldl visit s).finish := by
  have events := perm.flatMap_right (Visit.events s.configured.contains)
  have ids := perm.map Visit.scriptId
  have usage := Usage.alike_foldl_recordReads s.configured perm s.usage
  have blocks := Event.toList_foldl_count_perm events s.blocks
  have unknown : (s.unknown ++ (Event.listed s.settings
        (visits.flatMap (Visit.events s.configured.contains))).toArray).toList.Perm
      (s.unknown ++ (Event.listed s.settings
        (others.flatMap (Visit.events s.configured.contains))).toArray).toList := by
    rw [Array.toList_append, Array.toList_append]
    exact (Event.listed_perm events s.settings).append_left _
  have total : ((visits.map Visit.scriptId).foldl Repeats.record s.repeats).total =
      ((others.map Visit.scriptId).foldl Repeats.record s.repeats).total := by
    rw [Repeats.total_foldl, Repeats.total_foldl, ids.length_eq]
  have duplicates := Repeats.duplicates_foldl_perm ids s.repeats
  rw [foldl_visit, foldl_visit]
  exact {
    projectLevel := projectLevel_congr blocks unknown
    blocks := blocks
    unknownEvents := unknown
    totalScripts := total
    duplicateScripts := duplicates
    duplicationRatio := congrArg₂ Variability.duplicationRatio duplicates total
    totalCombinations := rfl
    tangling := usage.toList_tangling
    scattering := usage.toList_scattering
    deadFeatures := usage.toList_deadFeatures _
    configured := rfl
    discarded := rfl }

/-- Two owners with the same script, which changes a block that is not known: only the
unknown events tell who was visited first. -/
theorem finish_foldl_visit_perm_swap :
    let script : Element :=
      ⟨"script", [], "",
        [⟨"block", [("s", "doSetBlockAttribute")], "",
          [⟨"l", [], "", []⟩, ⟨"block", [("var", "b")], "", []⟩, ⟨"l", [], "", []⟩]⟩]⟩
    let stage : Visit := ⟨"Stage", script⟩
    let cat : Visit := ⟨"Cat", script⟩
    let one := ([stage, cat].foldl visit {}).finish
    let other := ([cat, stage].foldl visit {}).finish
    [stage, cat].Perm [cat, stage] ∧ one.Agrees other ∧
      one.unknownEvents.map UnknownEvent.owner = ["Stage", "Cat"] ∧
      other.unknownEvents.map UnknownEvent.owner = ["Cat", "Stage"] := by
  intro script stage cat one other
  have swap : [stage, cat].Perm [cat, stage] := .swap cat stage []
  have made : (Script.ofElement script).mutations ({} : Configured).contains =
      [⟨.unresolved (.unboundVariable "b"), .structural ""⟩] := by
    decide +kernel
  have owners : ∀ first second : String,
      ([⟨first, script⟩, ⟨second, script⟩].foldl visit {}).finish.unknownEvents.map
        UnknownEvent.owner = [first, second] := by
    intro first second
    rw [foldl_visit]
    simp [finish, addEvents, Visit.events, made, Event.listed, Event.key?, Resolution.unresolved,
      Event.toUnknown, UnknownEvent.ofMutation]
  exact ⟨swap, finish_foldl_visit_perm {} swap, owners "Stage" "Cat", owners "Cat" "Stage"⟩

end Survey
end Variability
