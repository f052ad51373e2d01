import Variability.Proofs.Analysis.Features
import Variability.Proofs.Feature.Sources
import Variability.Proofs.Text.Trim

/-! The variable of a slider and the scripts that read it. A slider configures its
variable under the trimmed name, while a block reads a variable under the name that is
written on it, blanks and all. So a variable is alive when a block has the trimmed name,
and what a block says with blanks around it reads nothing that is configured. -/
namespace Variability

namespace Configured

private theorem trim_of_mem_names {root : Element} {n : String} (known : n ∈ (collect root).names) :
    Text.trim n = n := by
  rcases (mem_names_collect_iff root n).mp known with
    ⟨watcher, _, shows⟩ | ⟨block, _, answers⟩
  · obtain ⟨var, _, rfl⟩ := shows.var
    exact Text.trim_trim var
  · obtain ⟨name, _, _, _, rfl, _⟩ := answers.parts
    exact Text.trim_trim name.text

theorem mem_names_of_slider {root watcher : Element} {var : String}
    (listed : watcher ∈ Outline.watchers root) (slider : isSlider watcher = true)
    (shown : watcher.attr? "var" = some var) (named : Text.trim var ≠ "") :
    Text.trim var ∈ (collect root).names := by
  obtain ⟨held, tag⟩ := List.mem_filter.mp listed
  rw [Element.mem_descendants_iff] at held
  rw [mem_names_collect_iff]
  exact .inl ⟨watcher, held, eq_of_beq tag, (isSlider_iff watcher).mp slider, ⟨var, shown, rfl⟩,
    named⟩

end Configured

private theorem alive_of_reads {settings : Settings} {p : Project} {n : String} {v : Visit}
    (known : n ∈ (Configured.collect p.root).names) (visited : v ∈ Visit.ofRoot settings p.root)
    (read : v.script.Reads n) :
    n ∉ (analyzeProject settings p).deadFeatures ∧
      ∃ ids, (analyzeProject settings p).scattering[n]? = some ids ∧ fingerprint v.script ∈ ids := by
  have scattered : n ∈ (analyzeProject settings p).scattering :=
    (mem_analyzeProject_scattering_iff settings p n).mpr ⟨known, v, visited, read⟩
  refine ⟨fun dead => ((mem_analyzeProject_deadFeatures_iff settings p n).mp dead).2 scattered, ?_⟩
  rw [Std.TreeMap.mem_iff_isSome_getElem?, Option.isSome_iff_exists] at scattered
  obtain ⟨ids, found⟩ := scattered
  exact ⟨ids, found, (mem_scattered_iff settings p found _).mpr ⟨v, visited, read, rfl⟩⟩

/-- The variable of a slider is dead exactly when no analysed script has a block with its
trimmed name, and its fingerprints are those of the scripts that have one. A name with
blanks around it, as the slider may have it, is read by nobody. -/
theorem analyzeProject_slider (settings : Settings) (p : Project) (watcher : Element)
    (var : String) (listed : watcher ∈ Outline.watchers p.root)
    (slider : Configured.isSlider watcher = true) (shown : watcher.attr? "var" = some var)
    (named : Text.trim var ≠ "") :
    let name := Text.trim var
    let visits := Visit.ofRoot settings p.root
    let result := analyzeProject settings p
    name ∈ (Configured.collect p.root).names ∧
      (∀ v ∈ visits, v.script.Reads name → name ∉ result.deadFeatures ∧
        ∃ ids, result.scattering[name]? = some ids ∧ fingerprint v.script ∈ ids) ∧
      (name ∈ result.deadFeatures ↔ ∀ v ∈ visits, ¬ v.script.Reads name) ∧
      (var ≠ name → var ∉ (Configured.collect p.root).names ∧ var ∉ result.scattering) := by
  intro name visits result
  have known : name ∈ (Configured.collect p.root).names :=
    Configured.mem_names_of_slider listed slider shown named
  refine ⟨known, fun v visited read => alive_of_reads known visited read, ?_, fun padded => ?_⟩
  · constructor
    · intro dead v visited read
      exact (alive_of_reads known visited read).1 dead
    · intro unread
      rw [mem_analyzeProject_deadFeatures_iff, mem_analyzeProject_scattering_iff]
      exact ⟨known, fun ⟨_, v, visited, read⟩ => unread v visited read⟩
  · have unknown : var ∉ (Configured.collect p.root).names := fun listed =>
      padded (Configured.trim_of_mem_names listed).symm
    exact ⟨unknown, fun scattered =>
      unknown ((mem_analyzeProject_scattering_iff settings p var).mp scattered).1⟩

theorem analyzeProject_slider_trimmed :
    let watcher : Element := ⟨"watcher", [("style", "slider"), ("var", " mode ")], "", []⟩
    let script : Element := ⟨"script", [], "", [⟨"block", [("var", "mode")], "", []⟩]⟩
    let stage : Element := ⟨"stage", [], "", [⟨"scripts", [], "", [script]⟩]⟩
    let p : Project := ⟨⟨"project", [], "", [stage, watcher]⟩, 0⟩
    watcher ∈ Outline.watchers p.root ∧ Configured.isSlider watcher = true ∧
      watcher.attr? "var" = some " mode " ∧ Text.trim " mode " = "mode" ∧
      ⟨"Stage", script⟩ ∈ Visit.ofRoot {} p.root ∧ script.Reads "mode" ∧
      "mode" ∉ (analyzeProject {} p).deadFeatures ∧
      ∃ ids, (analyzeProject {} p).scattering["mode"]? = some ids ∧ fingerprint script ∈ ids := by
  intro watcher script stage p
  have trimmed : Text.trim " mode " = "mode" := by decide
  have slider : Configured.isSlider watcher = true := by decide
  have held : p.root.Holds watcher :=
    .inside (List.mem_cons_of_mem _ List.mem_cons_self) (.itself _)
  have listed : watcher ∈ Outline.watchers p.root :=
    List.mem_filter.mpr ⟨(Element.mem_descendants_iff _ _).mpr held, by decide⟩
  have visits : Visit.ofRoot {} p.root = [⟨"Stage", script⟩] := by cbv
  have visited : ⟨"Stage", script⟩ ∈ Visit.ofRoot {} p.root := by
    rw [visits]
    exact List.mem_cons_self
  have read : script.Reads "mode" :=
    ⟨_, .inside List.mem_cons_self (.itself _), rfl, rfl⟩
  obtain ⟨_, alive, _⟩ :=
    analyzeProject_slider {} p watcher " mode " listed slider rfl (by decide)
  rw [trimmed] at alive
  have found := alive _ visited read
  exact ⟨listed, slider, rfl, trimmed, visited, read, found⟩

/-- The slider and the block have the same name with blanks around it: the variable is
dead, though a script reads it. -/
theorem analyzeProject_padded_name :
    let watcher : Element := ⟨"watcher", [("style", "slider"), ("var", " mode ")], "", []⟩
    let script : Element := ⟨"script", [], "", [⟨"block", [("var", " mode ")], "", []⟩]⟩
    let stage : Element := ⟨"stage", [], "", [⟨"scripts", [], "", [script]⟩]⟩
    let p : Project := ⟨⟨"project", [], "", [stage, watcher]⟩, 0⟩
    watcher ∈ Outline.watchers p.root ∧ Configured.isSlider watcher = true ∧
      watcher.attr? "var" = some " mode " ∧ Text.trim " mode " = "mode" ∧
      ⟨"Stage", script⟩ ∈ Visit.ofRoot {} p.root ∧ script.Reads " mode " ∧
      "mode" ∈ (analyzeProject {} p).deadFeatures ∧ "mode" ∉ (analyzeProject {} p).scattering := by
  intro watcher script stage p
  have trimmed : Text.trim " mode " = "mode" := by decide
  have slider : Configured.isSlider watcher = true := by decide
  have held : p.root.Holds watcher :=
    .inside (List.mem_cons_of_mem _ List.mem_cons_self) (.itself _)
  have listed : watcher ∈ Outline.watchers p.root :=
    List.mem_filter.mpr ⟨(Element.mem_descendants_iff _ _).mpr held, by decide⟩
  have known : "mode" ∈ (Configured.collect p.root).names := by
    rw [← trimmed]
    exact Configured.mem_names_of_slider listed slider rfl (by decide)
  have visits : Visit.ofRoot {} p.root = [⟨"Stage", script⟩] := by cbv
  have visited : ⟨"Stage", script⟩ ∈ Visit.ofRoot {} p.root := by
    rw [visits]
    exact List.mem_cons_self
  have reads : variableReads script = [" mode "] := by decide +kernel
  have read : script.Reads " mode " :=
    ⟨_, .inside List.mem_cons_self (.itself _), rfl, rfl⟩
  have unread : "mode" ∉ (analyzeProject {} p).scattering := by
    rw [mem_analyzeProject_scattering_iff]
    rintro ⟨_, v, here, reading⟩
    rw [visits, List.mem_singleton] at here
    subst here
    have found := (mem_variableReads_iff script "mode").mpr ⟨reading, by decide⟩
    rw [reads] at found
    simp at found
  have dead : "mode" ∈ (analyzeProject {} p).deadFeatures :=
    (mem_analyzeProject_deadFeatures_iff {} p "mode").mpr ⟨known, unread⟩
  exact ⟨listed, slider, rfl, trimmed, visited, read, dead, unread⟩

end Variability
