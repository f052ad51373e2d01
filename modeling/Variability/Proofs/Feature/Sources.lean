import Variability.Proofs.Feature.Combinations

/-! Where each configured variable comes from. Sliders are entered before answers, and an
entry that is there stays; so the source of a variable is the first slider of the
document that shows it, and an answer only where no slider does. -/
namespace Variability

section FirstEntry
variable {α β : Type} {made? : α → Option (String × β)} {n : String}

@[simp] theorem lookup_filterMap_eq_none_iff (items : List α) :
    (items.filterMap made?).lookup n = none ↔ ∀ a ∈ items, ∀ b, made? a ≠ some (n, b) := by
  simp only [List.lookup_eq_none_iff, List.mem_filterMap, bne_iff_ne]
  constructor
  · intro others a listed b entered
    exact others (n, b) ⟨a, listed, entered⟩ rfl
  · rintro others ⟨key, b⟩ ⟨a, listed, entered⟩ rfl
    exact others a listed b entered

/-- What is found for a name is what the first item that has an entry for it says. -/
theorem lookup_filterMap_eq_some_iff (items : List α) (b : β) :
    (items.filterMap made?).lookup n = some b ↔
      ∃ before a after, items = before ++ a :: after ∧ made? a = some (n, b) ∧
        ∀ earlier ∈ before, ∀ other, made? earlier ≠ some (n, other) := by
  rw [List.lookup_eq_some_iff]
  constructor
  · rintro ⟨front, back, split, others⟩
    obtain ⟨before, rest, rfl, first, later⟩ := List.filterMap_eq_append_iff.mp split
    obtain ⟨skipped, a, after, rfl, unnamed, entered, _⟩ := List.filterMap_eq_cons_iff.mp later
    refine ⟨before ++ skipped, a, after, (List.append_assoc _ _ _).symm, entered, ?_⟩
    intro earlier ahead other named
    rcases List.mem_append.mp ahead with ahead | ahead
    · have listed : (n, other) ∈ front := by
        rw [← first]
        exact List.mem_filterMap.mpr ⟨earlier, ahead, named⟩
      simpa using others _ listed
    · rw [unnamed earlier ahead] at named
      cases named
  · rintro ⟨before, a, after, rfl, entered, others⟩
    refine ⟨before.filterMap made?, after.filterMap made?, ?_, ?_⟩
    · rw [List.filterMap_append, List.filterMap_cons, entered]
    · rintro ⟨key, other⟩ listed
      obtain ⟨earlier, ahead, named⟩ := List.mem_filterMap.mp listed
      rw [bne_iff_ne]
      rintro rfl
      exact others earlier ahead other named

end FirstEntry

namespace Configured

@[simp]
theorem getElem?_enter (sources : Std.TreeMap String FeatureSource) (entry : String × FeatureSource)
    (n : String) : (enter sources entry)[n]? = sources[n]?.or ([entry].lookup n) := by
  obtain ⟨name, source⟩ := entry
  simp only [enter, Std.TreeMap.getElem?_insertIfNew, Std.LawfulEqCmp.compare_eq_iff_eq]
  by_cases same : name = n
  · subst same
    rw [List.lookup_cons_self]
    by_cases known : name ∈ sources <;> simp [known]
  · have other : (n == name) = false := beq_false_of_ne (Ne.symm same)
    have unlisted : [(name, source)].lookup n = none := by
      rw [List.lookup_cons, other]
      rfl
    rw [if_neg fun both => same both.1, unlisted, Option.or_none]

@[simp] theorem getElem?_foldl_enter (entries : List (String × FeatureSource))
    (sources : Std.TreeMap String FeatureSource) (n : String) :
    (entries.foldl enter sources)[n]? = sources[n]?.or (entries.lookup n) := by
  induction entries generalizing sources with
  | nil => rw [List.foldl_nil, List.lookup_nil, Option.or_none]
  | cons entry rest ih =>
    rw [List.foldl_cons, ih, getElem?_enter, Option.or_assoc, ← List.lookup_append,
      List.singleton_append]

/-- A watcher of the style `slider`, in letters of either case, that shows the variable. -/
structure Shows (watcher : Element) (n : String) : Prop where
  tag : watcher.tag = "watcher"
  style : ∃ style, watcher.attr? "style" = some style ∧ (Text.trim style).toLower = "slider"
  var : ∃ var, watcher.attr? "var" = some var ∧ Text.trim var = n
  named : n ≠ ""

structure Answers (block : Element) (n : String) : Prop where
  tag : block.tag = "block"
  sets : block.selector = "doSetVar"
  parts : ∃ name value rest, block.children = name :: value :: rest ∧ name.trimmedText = n ∧
    value.tag = "block" ∧ value.selector = "getLastAnswer"
  named : n ≠ ""

def bounds (watcher : Element) : FeatureSource :=
  .slider ((watcher.attr? "min").bind readBound) ((watcher.attr? "max").bind readBound)

theorem isSlider_iff (watcher : Element) :
    isSlider watcher = true ↔
      ∃ style, watcher.attr? "style" = some style ∧ (Text.trim style).toLower = "slider" := by
  have letters (s : String) :
      s.toList.map Char.toLower = "slider".toList ↔ s.toLower = "slider" := by
    rw [← String.toList_map, String.toList_inj]
    rfl
  unfold isSlider
  dsimp only
  rw [beq_iff_eq]
  cases watcher.attr? "style" with
  | none => exact iff_of_false (by decide) (by simp)
  | some style =>
    simp only [Option.getD_some, Option.some.injEq, exists_eq_left']
    exact letters _

@[simp] theorem watched?_eq_some_iff (watcher : Element) (n : String) :
    watched? watcher = some n ↔
      (∃ var, watcher.attr? "var" = some var ∧ Text.trim var = n) ∧ n ≠ "" := by
  rw [watched?, Option.filter_eq_some_iff, Option.map_eq_some_iff, bne_iff_ne]

theorem shows_iff (watcher : Element) (n : String) :
    Shows watcher n ↔ watcher.tag = "watcher" ∧ slid? watcher = some n := by
  have slid : slid? watcher = some n ↔ isSlider watcher = true ∧ watched? watcher = some n := by
    unfold slid?
    cases isSlider watcher <;> simp
  rw [slid, isSlider_iff, watched?_eq_some_iff]
  constructor
  · rintro ⟨tag, style, var, named⟩
    exact ⟨tag, style, var, named⟩
  · rintro ⟨tag, style, var, named⟩
    exact ⟨tag, style, var, named⟩

theorem answers_iff (block : Element) (n : String) :
    Answers block n ↔ block.tag = "block" ∧ answered? block = some n := by
  unfold answered?
  constructor
  · rintro ⟨tag, sets, ⟨name, value, rest, children, rfl, asked, asks⟩, named⟩
    simp [tag, children, sets, asked, asks, named]
  · rintro ⟨tag, set⟩
    split at set
    case h_1 name value rest children =>
      split at set
      case isTrue fits =>
        simp only [Bool.and_eq_true, beq_iff_eq, bne_iff_ne] at fits
        obtain ⟨⟨⟨sets, asked⟩, asks⟩, named⟩ := fits
        obtain rfl := Option.some.inj set
        exact ⟨tag, sets, ⟨name, value, rest, children, rfl, asked, asks⟩, named⟩
      case isFalse => cases set
    case h_2 => cases set

section Entries
variable (e : Element) (n : String) (source : FeatureSource)

private theorem slider_entry_iff :
    (if e.tag == "watcher" then slider? e else none) = some (n, source) ↔
      Shows e n ∧ source = bounds e := by
  have entry : slider? e = some (n, source) ↔ slid? e = some n ∧ source = bounds e := by
    unfold slider? slid? bounds
    cases isSlider e <;> simp [eq_comm]
  rw [shows_iff, and_assoc, ← entry]
  by_cases tag : e.tag = "watcher" <;> simp [tag]

private theorem answer_entry_iff :
    (if e.tag == "block" then answer? e else none) = some (n, source) ↔
      Answers e n ∧ source = .answer := by
  have entry : answer? e = some (n, source) ↔ answered? e = some n ∧ source = .answer := by
    simp [answer?, eq_comm]
  rw [answers_iff, and_assoc, ← entry]
  by_cases tag : e.tag = "block" <;> simp [tag]

end Entries

theorem mem_names_collect_iff (root : Element) (n : String) :
    n ∈ (collect root).names ↔ (∃ watcher, root.Holds watcher ∧ Shows watcher n) ∨
      ∃ block, root.Holds block ∧ Answers block n := by
  simp only [mem_names_iff, mem_collect_iff, Outline.watchers, Element.descendantsNamed,
    List.mem_filter, Element.mem_descendants_iff, beq_iff_eq, shows_iff, answers_iff, and_assoc]

theorem getElem?_sources (root : Element) (n : String) :
    (collect root).sources[n]? =
      ((root.answers fun e => if e.tag == "watcher" then slider? e else none).lookup n).or
        ((root.answers fun e => if e.tag == "block" then answer? e else none).lookup n) := by
  rw [sources_collect, getElem?_foldl_enter, List.lookup_append, Outline.watchers,
    Element.filterMap_descendantsNamed, Element.filterMap_descendantsNamed]
  simp

theorem getElem?_sources_eq_slider_iff (root : Element) (n : String) (low high : Option Float) :
    (collect root).sources[n]? = some (.slider low high) ↔
      ∃ before watcher after, root.descendants = before ++ watcher :: after ∧ Shows watcher n ∧
        (∀ earlier ∈ before, ¬ Shows earlier n) ∧ .slider low high = bounds watcher := by
  rw [getElem?_sources, Option.or_eq_some_iff]
  simp only [Element.answers, lookup_filterMap_eq_some_iff, ne_eq, slider_entry_iff,
    answer_entry_iff]
  constructor
  · rintro (⟨before, watcher, after, split, ⟨shows, same⟩, first⟩ | ⟨_, _, _, _, _, ⟨_, same⟩, _⟩)
    · exact ⟨before, watcher, after, split, shows,
        fun earlier ahead too => first earlier ahead _ ⟨too, rfl⟩, same⟩
    · cases same
  · rintro ⟨before, watcher, after, split, shows, first, same⟩
    exact .inl ⟨before, watcher, after, split, ⟨shows, same⟩,
      fun earlier ahead _ too => first earlier ahead too.1⟩

private theorem lookup_answer_iff (root : Element) (n : String) :
    (root.answers fun e => if e.tag == "block" then answer? e else none).lookup n = some .answer ↔
      ∃ block, root.Holds block ∧ Answers block n := by
  constructor
  · intro found
    obtain ⟨before, block, after, split, entered, _⟩ :=
      (lookup_filterMap_eq_some_iff root.descendants FeatureSource.answer).mp found
    refine ⟨block, ?_, ((answer_entry_iff block n .answer).mp entered).1⟩
    rw [← Element.mem_descendants_iff, split]
    exact List.mem_append_right before List.mem_cons_self
  · rintro ⟨block, held, answers⟩
    cases found : (root.answers fun e => if e.tag == "block" then answer? e else none).lookup n with
    | none =>
      have unanswered := (lookup_filterMap_eq_none_iff root.descendants).mp found block
        ((Element.mem_descendants_iff root block).mpr held) .answer
      exact absurd ((answer_entry_iff block n .answer).mpr ⟨answers, rfl⟩) unanswered
    | some source =>
      obtain ⟨_, other, _, _, entered, _⟩ :=
        (lookup_filterMap_eq_some_iff root.descendants source).mp found
      rw [((answer_entry_iff other n source).mp entered).2]

theorem getElem?_sources_eq_answer_iff (root : Element) (n : String) :
    (collect root).sources[n]? = some .answer ↔
      (∀ watcher, root.Holds watcher → ¬ Shows watcher n) ∧
        ∃ block, root.Holds block ∧ Answers block n := by
  rw [getElem?_sources, Option.or_eq_some_iff, lookup_answer_iff]
  simp only [Element.answers, lookup_filterMap_eq_some_iff, lookup_filterMap_eq_none_iff, ne_eq,
    slider_entry_iff, Element.mem_descendants_iff]
  constructor
  · rintro (⟨_, _, _, _, ⟨_, same⟩, _⟩ | ⟨unshown, answered⟩)
    · cases same
    · exact ⟨fun watcher held shows => unshown watcher held _ ⟨shows, rfl⟩, answered⟩
  · rintro ⟨unshown, answered⟩
    exact .inr ⟨fun watcher held _ shows => unshown watcher held shows.1, answered⟩

/-- A variable is configured exactly when a slider shows it or a block sets it to an
answer, wherever that is in the tree. Its source is the first slider of the document
that shows it, with the bounds of that slider, and an answer when there is none. The
names come in increasing order, so each of them once. -/
theorem collect_sources (root : Element) :
    (∀ n, n ∈ (collect root).names ↔
      (∃ watcher, root.Holds watcher ∧ Shows watcher n) ∨
        ∃ block, root.Holds block ∧ Answers block n) ∧
    (∀ n low high, (collect root).sources[n]? = some (.slider low high) ↔
      ∃ before watcher after, root.descendants = before ++ watcher :: after ∧ Shows watcher n ∧
        (∀ earlier ∈ before, ¬ Shows earlier n) ∧
        low = (watcher.attr? "min").bind readBound ∧
        high = (watcher.attr? "max").bind readBound) ∧
    (∀ n, (collect root).sources[n]? = some .answer ↔
      (∀ watcher, root.Holds watcher → ¬ Shows watcher n) ∧
        ∃ block, root.Holds block ∧ Answers block n) ∧
    (collect root).names.Pairwise (· < ·) := by
  refine ⟨mem_names_collect_iff root, fun n low high => ?_, getElem?_sources_eq_answer_iff root,
    pairwise_names _⟩
  rw [getElem?_sources_eq_slider_iff]
  simp only [bounds, FeatureSource.slider.injEq]

end Configured
end Variability
