import Variability.Proofs.Analysis.Duplication
import Variability.Proofs.Element.Descendants

/-! A project inside an outer element. Scenes, sprites, watchers and answers are looked
for anywhere below the root, so an outer element does not hide them. The definitions of
a scene and its stage are looked for among its children alone: when the root stands in
for the scenes that a project does not have, an outer element hides them. -/
namespace Variability

/-- A project as it is stored beside its media. -/
def Element.snapdata (attributes : List (String × String)) (text : String) (project : Element) :
    Element :=
  ⟨"snapdata", attributes, text, [project]⟩

namespace Outline

def sprites (scene : Element) : List Owner :=
  ((scene.properDescendants.filter (·.tag == "sprites")).flatMap (·.childrenNamed "sprite")).map
    fun sprite => ⟨spriteName sprite, sprite⟩

end Outline

namespace Visit

/-- The visits ahead of the sprites: the definitions of a scene, and its stage. -/
def ofFront (settings : Settings) (scene : Element) : List Visit :=
  ofDefinitions settings Outline.globalOwner scene ++
    ((scene.child? "stage").map (Owner.mk Outline.stageOwner)).toList.flatMap (ofOwner settings)

def ofSprites (settings : Settings) (scene : Element) : List Visit :=
  (Outline.sprites scene).flatMap (ofOwner settings)

theorem ofScene_eq (settings : Settings) (scene : Element) :
    ofScene settings scene = ofFront settings scene ++ ofSprites settings scene := by
  simp only [ofScene, Outline.owners, List.flatMap_append, ← List.append_assoc]
  rfl

private theorem ofRoot_of_scenes {settings : Settings} {root : Element}
    (scened : Outline.scenes root ≠ []) :
    ofRoot settings root = (Outline.scenes root).flatMap (ofScene settings) := by
  obtain ⟨scene, rest, found⟩ := List.exists_cons_of_ne_nil scened
  rw [ofRoot, Outline.scenesOrRoot, found]

private theorem ofRoot_of_no_scenes {settings : Settings} {root : Element}
    (sceneless : Outline.scenes root = []) :
    ofRoot settings root = ofFront settings root ++ ofSprites settings root := by
  rw [ofRoot, Outline.scenesOrRoot, sceneless, List.flatMap_singleton, ofScene_eq]

end Visit

section Wrapped
variable (attributes : List (String × String)) (text : String) {project : Element}

@[simp] theorem Element.properDescendants_snapdata (project : Element) :
    (snapdata attributes text project).properDescendants = project.descendants := by
  rw [properDescendants_eq, snapdata, List.flatMap_singleton]

theorem Element.descendantsNamed_snapdata (project : Element) {tag : String}
    (other : tag ≠ "snapdata") :
    (snapdata attributes text project).descendantsNamed tag = project.descendantsNamed tag := by
  rw [descendantsNamed, descendants_eq, ← properDescendants_eq, properDescendants_snapdata,
    List.filter_cons_of_neg (by simpa [snapdata] using other.symm)]
  rfl

@[simp] theorem Configured.collect_snapdata (project : Element) :
    collect (.snapdata attributes text project) = collect project := by
  simp only [collect, Outline.watchers]
  rw [Element.descendantsNamed_snapdata _ _ _ (by decide),
    Element.descendantsNamed_snapdata _ _ _ (by decide)]

variable (tagged : project.tag = "project")
include tagged

private theorem Element.filter_properDescendants_snapdata {tag : String} (other : tag ≠ "project") :
    (snapdata attributes text project).properDescendants.filter (·.tag == tag) =
      project.properDescendants.filter (·.tag == tag) := by
  rw [properDescendants_snapdata, descendants_eq, ← properDescendants_eq,
    List.filter_cons_of_neg (by simpa [tagged] using other.symm)]

theorem Element.child?_snapdata {tag : String} (other : tag ≠ "project") :
    (snapdata attributes text project).child? tag = none := by
  simpa [child?, snapdata, tagged] using other.symm

theorem Outline.scenes_snapdata :
    scenes (.snapdata attributes text project) = scenes project :=
  Element.filter_properDescendants_snapdata attributes text tagged (by decide)

theorem Visit.ofFront_snapdata (settings : Settings) :
    ofFront settings (.snapdata attributes text project) = [] := by
  rw [ofFront, ofDefinitions, Outline.definitions,
    Element.child?_snapdata attributes text tagged (by decide),
    Element.child?_snapdata attributes text tagged (by decide)]
  rfl

theorem Visit.ofSprites_snapdata (settings : Settings) :
    ofSprites settings (.snapdata attributes text project) = ofSprites settings project := by
  rw [ofSprites, Outline.sprites,
    Element.filter_properDescendants_snapdata attributes text tagged (by decide)]
  rfl

/-- In an outer element the scenes of a project are visited as before. Without scenes
the sprites are, and nothing else. -/
theorem Visit.ofRoot_snapdata (settings : Settings) :
    ofRoot settings (.snapdata attributes text project) =
      if Outline.scenes project = [] then ofSprites settings project
      else ofRoot settings project := by
  have scenes := Outline.scenes_snapdata attributes text tagged
  split
  · rename_i sceneless
    rw [ofRoot_of_no_scenes (scenes.trans sceneless), ofFront_snapdata attributes text tagged,
      ofSprites_snapdata attributes text tagged, List.nil_append]
  · rename_i scened
    rw [ofRoot_of_scenes (scenes.trans_ne scened), ofRoot_of_scenes scened, scenes]

end Wrapped

theorem analyzeProject_congr {settings : Settings} {p q : Project}
    (configured : Configured.collect p.root = Configured.collect q.root)
    (visits : Visit.ofRoot settings p.root = Visit.ofRoot settings q.root)
    (discarded : p.discarded = q.discarded) :
    analyzeProject settings p = analyzeProject settings q := by
  simp only [analyzeProject, Survey.analyze, configured, visits, discarded]

/-- A project with a scene is analysed alike in an outer element. A project without is
so exactly when its own definitions and its stage have nothing to visit; their scripts
are those that are missed. -/
theorem analyzeProject_snapdata (settings : Settings) (project : Element)
    (tagged : project.tag = "project") (attributes : List (String × String)) (text : String)
    (discarded : Nat) :
    let root := Element.snapdata attributes text project
    let wrapped := analyzeProject settings ⟨root, discarded⟩
    let bare := analyzeProject settings ⟨project, discarded⟩
    (wrapped = bare ↔ Outline.scenes project ≠ [] ∨ Visit.ofFront settings project = []) ∧
      (Outline.scenes project = [] →
        Visit.ofRoot settings project =
            Visit.ofFront settings project ++ Visit.ofRoot settings root ∧
          bare.totalScripts =
            (Visit.ofFront settings project).length + wrapped.totalScripts) ∧
      wrapped.configured = bare.configured ∧
      wrapped.totalCombinations = bare.totalCombinations ∧
      wrapped.discarded = bare.discarded := by
  intro root wrapped bare
  have configured : Configured.collect root = Configured.collect project :=
    Configured.collect_snapdata attributes text project
  have visits : Visit.ofRoot settings root = _ :=
    Visit.ofRoot_snapdata attributes text tagged settings
  have missed : Outline.scenes project = [] →
      Visit.ofRoot settings project =
          Visit.ofFront settings project ++ Visit.ofRoot settings root ∧
        bare.totalScripts = (Visit.ofFront settings project).length + wrapped.totalScripts := by
    intro sceneless
    rw [if_pos sceneless] at visits
    refine ⟨by rw [Visit.ofRoot_of_no_scenes sceneless, visits], ?_⟩
    rw [Project.totalScripts_eq, Project.totalScripts_eq, visits,
      Visit.ofRoot_of_no_scenes sceneless, List.length_append]
  refine ⟨⟨fun same => ?_, fun kept => ?_⟩, missed, ?_, ?_, ?_⟩
  · rw [or_iff_not_imp_left, not_not]
    intro sceneless
    have total := (missed sceneless).2
    rw [same] at total
    exact List.length_eq_zero_iff.mp (by omega)
  · refine analyzeProject_congr (p := ⟨root, discarded⟩) (q := ⟨project, discarded⟩)
      configured ?_ rfl
    rw [visits]
    split
    · rename_i sceneless
      rw [Visit.ofRoot_of_no_scenes sceneless, kept.resolve_left (not_not_intro sceneless),
        List.nil_append]
    · rfl
  · simp only [wrapped, bare, analyzeProject_eq, Survey.finish, configured]
  · simp only [wrapped, bare, analyzeProject_eq, Survey.finish, configured]
  · simp only [wrapped, bare, analyzeProject_eq, Survey.finish]

theorem analyzeProject_snapdata_scene :
    let project : Element :=
      ⟨"project", [], "", [⟨"scene", [], "", (Project.staged [.script ["a"]]).root.children⟩]⟩
    project.tag = "project" ∧ Outline.scenes project ≠ [] ∧
      analyzeProject {} ⟨.snapdata [] "" project, 0⟩ = analyzeProject {} ⟨project, 0⟩ ∧
      (analyzeProject {} ⟨project, 0⟩).totalScripts = 1 := by
  intro project
  have scenes : Outline.scenes project ≠ [] := by
    decide +kernel
  have same := (analyzeProject_snapdata {} project rfl [] "" 0).1.mpr (.inl scenes)
  refine ⟨rfl, scenes, same, ?_⟩
  rw [Project.totalScripts_eq]
  decide +kernel

/-- A project without scenes: the script on its stage is not found in an outer element. -/
theorem analyzeProject_snapdata_stage :
    let project := (Project.staged [.script ["a"]]).root
    project.tag = "project" ∧
      (analyzeProject {} ⟨project, 0⟩).totalScripts = 1 ∧
      (analyzeProject {} ⟨.snapdata [] "" project, 0⟩).totalScripts = 0 ∧
      analyzeProject {} ⟨.snapdata [] "" project, 0⟩ ≠ analyzeProject {} ⟨project, 0⟩ := by
  intro project
  have bare : (analyzeProject {} ⟨project, 0⟩).totalScripts = 1 := by
    rw [Project.totalScripts_eq]
    decide +kernel
  have wrapped : (analyzeProject {} ⟨.snapdata [] "" project, 0⟩).totalScripts = 0 := by
    rw [Project.totalScripts_eq]
    decide +kernel
  refine ⟨rfl, bare, wrapped, fun same => ?_⟩
  rw [same, bare] at wrapped
  contradiction

end Variability
