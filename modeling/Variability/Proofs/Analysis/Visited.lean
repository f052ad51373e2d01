import Mathlib.Data.List.Pairwise
import Variability.Proofs.Analysis.Wrapping
import Variability.Proofs.Element.Position

/-! Where the visited scripts stand. A scene visits no position twice, and two scenes
share a position only when one lies inside the other and a sprite of the inner one has
scripts: sprites are looked for at any depth, so they belong to both. -/
namespace Variability

/-- Definitions without a name are left out, and those of the library when that is set. -/
def Definition.counts (settings : Settings) (d : Definition) : Bool :=
  !(d.name == "" ||
    (settings.ignoreLibraryDefinitions && Vocabulary.isLibraryDefinition d.name))

namespace Outline

def bodies (settings : Settings) (holder : Element) : List Element :=
  ((definitions holder).filter (Definition.counts settings)).filterMap Definition.body

def owned (settings : Settings) (owner : Element) : List Element :=
  bodies settings owner ++ scripts owner

end Outline

namespace Visit

@[simp] theorem map_script_ofDefinitions (settings : Settings) (owner : String) (holder : Element) :
    (ofDefinitions settings owner holder).map script = Outline.bodies settings holder := by
  rw [ofDefinitions, Outline.bodies, List.map_filterMap, List.filterMap_filter]
  apply List.filterMap_congr
  intro d _
  unfold Definition.counts
  cases d.name == "" <;>
    cases settings.ignoreLibraryDefinitions && Vocabulary.isLibraryDefinition d.name <;>
    cases d.body <;> rfl

@[simp] theorem map_script_ofOwner (settings : Settings) (owner : Owner) :
    (ofOwner settings owner).map script = Outline.owned settings owner.element := by
  rw [ofOwner, Outline.owned, List.map_append, map_script_ofDefinitions, List.map_map]
  exact congrArg _ (List.map_id _)

@[simp] theorem map_script_ofScene (settings : Settings) (scene : Element) :
    (ofScene settings scene).map script =
      Outline.bodies settings scene ++
        ((Outline.owners scene).map Owner.element).flatMap (Outline.owned settings) := by
  rw [ofScene, List.map_append, map_script_ofDefinitions, List.map_flatMap, List.flatMap_map]
  simp only [map_script_ofOwner]

end Visit

namespace Spot
variable {root : Element}

def bodies (settings : Settings) (holder : Spot root) : List (Spot root) :=
  (holder.child? "blocks").toList.flatMap fun blocks =>
    ((blocks.childrenNamed "block-definition").filter
      fun d => (Outline.definition d.element).counts settings).filterMap (·.child? "script")

def scripts (owner : Spot root) : List (Spot root) :=
  (owner.child? "scripts").toList.flatMap (·.childrenNamed "script")

def owned (settings : Settings) (owner : Spot root) : List (Spot root) :=
  owner.bodies settings ++ owner.scripts

def sprites (scene : Spot root) : List (Spot root) :=
  (scene.properDescendants.filter (·.element.tag == "sprites")).flatMap (·.childrenNamed "sprite")

def owners (scene : Spot root) : List (Spot root) :=
  (scene.child? "stage").toList ++ scene.sprites

def ofScene (settings : Settings) (scene : Spot root) : List (Spot root) :=
  scene.bodies settings ++ scene.owners.flatMap (owned settings)

def scenes (s : Spot root) : List (Spot root) :=
  s.properDescendants.filter (·.element.tag == "scene")

def scenesOrSelf (s : Spot root) : List (Spot root) :=
  match s.scenes with
  | [] => [s]
  | found => found

def visited (settings : Settings) (root : Element) : List (Spot root) :=
  (top root).scenesOrSelf.flatMap (ofScene settings)

@[simp] theorem map_element_bodies (settings : Settings) (holder : Spot root) :
    (holder.bodies settings).map element = Outline.bodies settings holder.element := by
  rw [bodies, Outline.bodies, Outline.definitions, ← map_element_child?]
  cases holder.child? "blocks" with
  | none => rfl
  | some blocks =>
    rw [Option.map_some, Option.toList_some, List.flatMap_singleton]
    simp only [← map_element_childrenNamed, List.map_map, List.filter_map, List.filterMap_map,
      List.map_filterMap, map_element_child?, Function.comp_def]
    rfl

@[simp] theorem map_element_scripts (owner : Spot root) :
    owner.scripts.map element = Outline.scripts owner.element := by
  rw [Outline.scripts, ← map_element_child?, scripts]
  cases owner.child? "scripts" with
  | none => rfl
  | some list =>
    rw [Option.toList_some, List.flatMap_singleton]
    exact map_element_childrenNamed list "script"

@[simp] theorem map_element_owned (settings : Settings) (owner : Spot root) :
    (owner.owned settings).map element = Outline.owned settings owner.element := by
  rw [owned, Outline.owned, List.map_append, map_element_bodies, map_element_scripts]

private theorem map_element_filter_tag (spots : List (Spot root)) (tag : String) :
    (spots.filter (·.element.tag == tag)).map element =
      (spots.map element).filter (·.tag == tag) := by
  rw [List.filter_map]
  rfl

@[simp] theorem map_element_owners (scene : Spot root) :
    scene.owners.map element = (Outline.owners scene.element).map Owner.element := by
  rw [owners, Outline.owners, List.map_append, List.map_append]
  congr 1
  · rw [← map_element_child?]
    cases scene.child? "stage" <;> rfl
  · rw [sprites, ← map_element_properDescendants, ← map_element_filter_tag, List.map_flatMap,
      List.flatMap_map, List.map_map]
    simp only [map_element_childrenNamed]
    exact (List.map_id _).symm

@[simp] theorem map_element_ofScene (settings : Settings) (scene : Spot root) :
    (scene.ofScene settings).map element =
      (Visit.ofScene settings scene.element).map Visit.script := by
  rw [Visit.map_script_ofScene, ← map_element_owners, ofScene, List.map_append,
    map_element_bodies, List.map_flatMap, List.flatMap_map]
  simp only [map_element_owned]

@[simp]
theorem map_element_scenes (s : Spot root) : s.scenes.map element = Outline.scenes s.element := by
  rw [scenes, map_element_filter_tag, map_element_properDescendants, Outline.scenes]

@[simp] theorem map_element_visited (settings : Settings) (root : Element) :
    (visited settings root).map element = (Visit.ofRoot settings root).map Visit.script := by
  have scenes : (top root).scenesOrSelf.map element = Outline.scenesOrRoot root := by
    have found : (top root).scenes.map element = Outline.scenes root :=
      map_element_scenes (top root)
    rw [scenesOrSelf, Outline.scenesOrRoot, ← found]
    cases (top root).scenes <;> rfl
  rw [visited, Visit.ofRoot, ← scenes, List.map_flatMap, List.map_flatMap, List.flatMap_map]
  simp only [map_element_ofScene]

theorem mem_bodies {settings : Settings} {holder s : Spot root}
    (listed : s ∈ holder.bodies settings) :
    ∃ blocks ∈ holder.children, ∃ definition ∈ blocks.children,
      definition.element.tag = "block-definition" ∧ s ∈ definition.children := by
  obtain ⟨blocks, found, inside⟩ := List.mem_flatMap.mp listed
  obtain ⟨definition, kept, body⟩ := List.mem_filterMap.mp inside
  obtain ⟨below, tagged⟩ := (mem_childrenNamed_iff _ _ _).mp (List.mem_filter.mp kept).1
  exact ⟨blocks, (mem_children_of_child? (Option.mem_toList.mp found)).1, definition, below, tagged,
    (mem_children_of_child? body).1⟩

theorem mem_scripts {owner s : Spot root} (listed : s ∈ owner.scripts) :
    ∃ list ∈ owner.children, list.element.tag = "scripts" ∧ s ∈ list.children := by
  obtain ⟨list, found, inside⟩ := List.mem_flatMap.mp listed
  obtain ⟨below, tagged⟩ := mem_children_of_child? (Option.mem_toList.mp found)
  exact ⟨list, below, tagged, ((mem_childrenNamed_iff _ _ _).mp inside).1⟩

private theorem not_mem_scripts_of_mem_bodies {settings : Settings} {holder owner s : Spot root}
    (body : s ∈ holder.bodies settings) : s ∉ owner.scripts := by
  intro script
  obtain ⟨_, _, definition, _, tagged, inside⟩ := mem_bodies body
  obtain ⟨list, _, other, also⟩ := mem_scripts script
  rw [parent_unique inside also, other] at tagged
  contradiction

theorem owner_unique {settings : Settings} {one other s : Spot root}
    (listed : s ∈ one.owned settings) (also : s ∈ other.owned settings) : one = other := by
  rcases List.mem_append.mp listed with body | script
  · rcases List.mem_append.mp also with body' | script'
    · obtain ⟨blocks, holds, definition, below, _, inside⟩ := mem_bodies body
      obtain ⟨blocks', holds', definition', below', _, inside'⟩ := mem_bodies body'
      have sameDefinition : definition = definition' := parent_unique inside inside'
      have sameBlocks : blocks = blocks' := parent_unique below (sameDefinition ▸ below')
      exact parent_unique holds (sameBlocks ▸ holds')
    · exact (not_mem_scripts_of_mem_bodies body script').elim
  · rcases List.mem_append.mp also with body' | script'
    · exact (not_mem_scripts_of_mem_bodies body' script).elim
    · obtain ⟨list, holds, _, inside⟩ := mem_scripts script
      obtain ⟨list', holds', _, inside'⟩ := mem_scripts script'
      have sameList : list = list' := parent_unique inside inside'
      exact parent_unique holds (sameList ▸ holds')

private theorem nodup_owned (settings : Settings) (owner : Spot root) :
    (owner.owned settings).Nodup := by
  have bodies : (owner.bodies settings).Nodup := by
    rw [Spot.bodies]
    cases owner.child? "blocks" with
    | none => exact List.nodup_nil
    | some blocks =>
      rw [Option.toList_some, List.flatMap_singleton]
      apply List.Nodup.filterMap
      · intro definition other body one also
        exact parent_unique (mem_children_of_child? one).1 (mem_children_of_child? also).1
      · exact (blocks.nodup_children.filter _).filter _
  have scripts : owner.scripts.Nodup := by
    rw [Spot.scripts]
    cases owner.child? "scripts" with
    | none => exact List.nodup_nil
    | some list =>
      rw [Option.toList_some, List.flatMap_singleton]
      exact list.nodup_children.filter _
  exact bodies.append scripts fun _ => not_mem_scripts_of_mem_bodies

@[simp] theorem mem_sprites_iff (scene s : Spot root) :
    s ∈ scene.sprites ↔ ∃ group ∈ scene.properDescendants, group.element.tag = "sprites" ∧
      s ∈ group.children ∧ s.element.tag = "sprite" := by
  simp only [sprites, List.mem_flatMap, List.mem_filter, beq_iff_eq, mem_childrenNamed_iff,
    and_assoc]

private theorem nodup_sprites (scene : Spot root) : scene.sprites.Nodup := by
  rw [sprites, List.nodup_flatMap]
  refine ⟨fun group _ => group.nodup_children.filter _, ?_⟩
  apply (scene.nodup_properDescendants.filter _).pairwise_of_forall_ne
  intro group _ other _ different s inside also
  exact different (parent_unique ((mem_childrenNamed_iff _ _ _).mp inside).1
    ((mem_childrenNamed_iff _ _ _).mp also).1)

theorem mem_owners {scene s : Spot root} (listed : s ∈ scene.owners) :
    s ∈ scene.children ∧ s.element.tag = "stage" ∨ s ∈ scene.sprites := by
  rcases List.mem_append.mp listed with stage | sprite
  · exact .inl (mem_children_of_child? (Option.mem_toList.mp stage))
  · exact .inr sprite

private theorem tag_of_mem_sprites {scene s : Spot root} (listed : s ∈ scene.sprites) :
    s.element.tag = "sprite" := by
  obtain ⟨_, _, _, _, tagged⟩ := (mem_sprites_iff scene s).mp listed
  exact tagged

private theorem tag_ne_scene_of_mem_owners {scene s : Spot root} (listed : s ∈ scene.owners) :
    s.element.tag ≠ "scene" := by
  rcases mem_owners listed with ⟨_, tagged⟩ | sprite
  · rw [tagged]
    decide
  · rw [tag_of_mem_sprites sprite]
    decide

theorem nodup_owners (scene : Spot root) : scene.owners.Nodup := by
  apply List.Nodup.append _ scene.nodup_sprites
  · intro s stage sprite
    have tagged := (mem_children_of_child? (Option.mem_toList.mp stage)).2
    rw [tag_of_mem_sprites sprite] at tagged
    contradiction
  · cases scene.child? "stage" <;> simp

private theorem mem_properDescendants_of_mem_owners {scene s : Spot root}
    (listed : s ∈ scene.owners) : s ∈ scene.properDescendants := by
  rcases mem_owners listed with ⟨stage, _⟩ | sprite
  · exact mem_properDescendants_of_mem_children stage
  · obtain ⟨group, below, _, inside, _⟩ := (mem_sprites_iff scene s).mp sprite
    exact mem_properDescendants_trans below (mem_properDescendants_of_mem_children inside)

theorem exists_owner {settings : Settings} {scene s : Spot root}
    (listed : s ∈ scene.ofScene settings) :
    ∃ owner, s ∈ owner.owned settings ∧ (owner = scene ∨ owner ∈ scene.owners) := by
  rcases List.mem_append.mp listed with body | inside
  · exact ⟨scene, List.mem_append_left _ body, .inl rfl⟩
  · obtain ⟨owner, known, owned⟩ := List.mem_flatMap.mp inside
    exact ⟨owner, owned, .inr known⟩

theorem nodup_ofScene (settings : Settings) (scene : Spot root) :
    (scene.ofScene settings).Nodup := by
  apply List.Nodup.append
  · exact (scene.nodup_owned settings).of_append_left
  · rw [List.nodup_flatMap]
    refine ⟨fun owner _ => owner.nodup_owned settings, ?_⟩
    apply scene.nodup_owners.pairwise_of_forall_ne
    intro one _ other _ different s listed also
    exact different (owner_unique listed also)
  · intro s body inside
    obtain ⟨owner, known, owned⟩ := List.mem_flatMap.mp inside
    apply ne_of_mem_properDescendants (mem_properDescendants_of_mem_owners known)
    exact owner_unique (List.mem_append_left _ body) owned

def ofSprites (settings : Settings) (scene : Spot root) : List (Spot root) :=
  scene.sprites.flatMap (owned settings)

theorem mem_ofScene_of_mem_ofSprites {settings : Settings} {scene s : Spot root}
    (listed : s ∈ scene.ofSprites settings) : s ∈ scene.ofScene settings := by
  apply List.mem_append_right
  rw [owners, List.flatMap_append]
  exact List.mem_append_right _ listed

/-- The sprites of a scene are sprites of every scene around it. -/
theorem mem_ofSprites_of_inside {settings : Settings} {outer inner s : Spot root}
    (inside : inner ∈ outer.properDescendants) (listed : s ∈ inner.ofSprites settings) :
    s ∈ outer.ofSprites settings := by
  obtain ⟨sprite, known, owned⟩ := List.mem_flatMap.mp listed
  obtain ⟨group, below, rest⟩ := (mem_sprites_iff inner sprite).mp known
  refine List.mem_flatMap.mpr ⟨sprite, (mem_sprites_iff outer sprite).mpr ⟨group, ?_, rest⟩, owned⟩
  exact mem_properDescendants_trans inside below

@[simp] theorem mem_scenes_iff (s scene : Spot root) :
    scene ∈ s.scenes ↔ scene ∈ s.properDescendants ∧ scene.element.tag = "scene" := by
  rw [scenes, List.mem_filter, beq_iff_eq]

theorem inside_of_shared_sprite {one other sprite : Spot root} (different : one ≠ other)
    (listed : sprite ∈ one.sprites) (also : sprite ∈ other.sprites) :
    other ∈ one.properDescendants ∨ one ∈ other.properDescendants := by
  obtain ⟨group, below, _, inside, _⟩ := (mem_sprites_iff one sprite).mp listed
  obtain ⟨group', below', _, inside', _⟩ := (mem_sprites_iff other sprite).mp also
  rw [← parent_unique inside inside'] at below'
  rcases List.prefix_or_prefix_of_prefix (prefix_of_mem_properDescendants below)
    (prefix_of_mem_properDescendants below') with way | way
  · exact .inl (mem_properDescendants_of_deeper way different)
  · exact .inr (mem_properDescendants_of_deeper way different.symm)

theorem sprite_of_shared_owner {one other owner : Spot root} (scene : one.element.tag = "scene")
    (scene' : other.element.tag = "scene") (different : one ≠ other)
    (listed : owner = one ∨ owner ∈ one.owners) (also : owner = other ∨ owner ∈ other.owners) :
    owner ∈ one.sprites ∧ owner ∈ other.sprites := by
  rcases listed with rfl | listed
  · rcases also with rfl | also
    · exact absurd rfl different
    · exact absurd scene (tag_ne_scene_of_mem_owners also)
  · rcases also with rfl | also
    · exact absurd scene' (tag_ne_scene_of_mem_owners listed)
    · rcases mem_owners listed with ⟨stage, tagged⟩ | sprite
      · rcases mem_owners also with ⟨stage', _⟩ | sprite'
        · exact absurd (parent_unique stage stage') different
        · rw [tag_of_mem_sprites sprite'] at tagged
          contradiction
      · rcases mem_owners also with ⟨_, tagged⟩ | sprite'
        · rw [tag_of_mem_sprites sprite] at tagged
          contradiction
        · exact ⟨sprite, sprite'⟩

/-- Two scenes that visit one position: it is visited for a sprite of both. -/
theorem sprite_of_shared {settings : Settings} {one other s : Spot root}
    (scene : one.element.tag = "scene") (scene' : other.element.tag = "scene")
    (different : one ≠ other) (listed : s ∈ one.ofScene settings)
    (also : s ∈ other.ofScene settings) :
    ∃ sprite, s ∈ sprite.owned settings ∧ sprite ∈ one.sprites ∧ sprite ∈ other.sprites := by
  obtain ⟨owner, owned, known⟩ := exists_owner listed
  obtain ⟨owner', owned', known'⟩ := exists_owner also
  rw [← owner_unique owned owned'] at known'
  exact ⟨owner, owned, sprite_of_shared_owner scene scene' different known known'⟩

private theorem scenes_subset {s outer : Spot root} (outside : outer ∈ s.scenes) {inner : Spot root}
    (inside : inner ∈ outer.scenes) : inner ∈ s.scenes := by
  obtain ⟨below, _⟩ := (mem_scenes_iff s outer).mp outside
  obtain ⟨further, tagged⟩ := (mem_scenes_iff outer inner).mp inside
  exact (mem_scenes_iff s inner).mpr ⟨mem_properDescendants_trans below further, tagged⟩

theorem disjoint_ofScene {settings : Settings} {s one other : Spot root}
    (apart : ∀ outer ∈ s.scenes, ∀ inner ∈ outer.scenes, inner.ofSprites settings = [])
    (listed : one ∈ s.scenes) (also : other ∈ s.scenes) (different : one ≠ other) :
    List.Disjoint (one.ofScene settings) (other.ofScene settings) := by
  intro position visited visited'
  obtain ⟨_, scene⟩ := (mem_scenes_iff s one).mp listed
  obtain ⟨_, scene'⟩ := (mem_scenes_iff s other).mp also
  obtain ⟨sprite, owned, known, known'⟩ :=
    sprite_of_shared scene scene' different visited visited'
  have empty : one.ofSprites settings = [] ∨ other.ofSprites settings = [] := by
    rcases inside_of_shared_sprite different known known' with inside | inside
    · exact .inr (apart one listed other ((mem_scenes_iff one other).mpr ⟨inside, scene'⟩))
    · exact .inl (apart other also one ((mem_scenes_iff other one).mpr ⟨inside, scene⟩))
  rcases empty with unowned | unowned
  · exact List.ne_nil_of_mem (List.mem_flatMap.mpr ⟨sprite, known, owned⟩) unowned
  · exact List.ne_nil_of_mem (List.mem_flatMap.mpr ⟨sprite, known', owned⟩) unowned

theorem nodup_visited_iff (settings : Settings) (root : Element) :
    (visited settings root).Nodup ↔
      ∀ outer ∈ (top root).scenes, ∀ inner ∈ outer.scenes, inner.ofSprites settings = [] := by
  rw [visited, scenesOrSelf]
  split
  · rename_i sceneless
    rw [List.flatMap_singleton, sceneless]
    exact ⟨fun _ => nofun, fun _ => nodup_ofScene settings (top root)⟩
  · rw [List.nodup_flatMap]
    constructor
    · rintro ⟨_, disjoint⟩ outer listed inner inside
      have different := ne_of_mem_properDescendants ((mem_scenes_iff outer inner).mp inside).1
      have : Std.Symm (Function.onFun List.Disjoint (@ofScene root settings)) :=
        ⟨fun _ _ h => h.symm⟩
      have never := disjoint.forall listed (scenes_subset listed inside) different
      apply List.eq_nil_iff_forall_not_mem.mpr
      intro s shared
      have outside := mem_ofSprites_of_inside ((mem_scenes_iff outer inner).mp inside).1 shared
      exact never (mem_ofScene_of_mem_ofSprites outside) (mem_ofScene_of_mem_ofSprites shared)
    · intro apart
      refine ⟨fun scene _ => nodup_ofScene settings scene, ?_⟩
      apply ((top root).nodup_properDescendants.filter _).pairwise_of_forall_ne
      intro one listed other also different
      exact disjoint_ofScene apart listed also different

end Spot

/-- The positions of the visited scripts, which are as many as the scripts counted: one
scene visits none of them twice, and all scenes together visit none twice exactly when
no scene inside another has sprites with scripts. -/
theorem analyzeProject_visits_apart (settings : Settings) (p : Project) :
    let visited := Spot.visited settings p.root
    let scenes := (Spot.top p.root).scenes
    visited.map Spot.element = (Visit.ofRoot settings p.root).map Visit.script ∧
      (analyzeProject settings p).totalScripts = visited.length ∧
      (∀ scene : Spot p.root, (scene.ofScene settings).Nodup) ∧
      ((visited.map Spot.path).Nodup ↔
        ∀ outer ∈ scenes, ∀ inner ∈ outer.scenes, inner.ofSprites settings = []) := by
  intro visited scenes
  have elements := Spot.map_element_visited settings p.root
  refine ⟨elements, ?_, Spot.nodup_ofScene settings, ?_⟩
  · have lengths := congrArg List.length elements
    rw [List.length_map, List.length_map] at lengths
    rw [Project.totalScripts_eq, ← lengths]
  · rw [List.nodup_map_iff Spot.path_injective]
    exact Spot.nodup_visited_iff settings p.root

/-- A scene inside a scene: the one script of the project is visited twice, and the
second time it is a duplicate of itself. -/
theorem analyzeProject_scene_in_scene :
    let sprites : Element :=
      ⟨"sprites", [], "", [⟨"sprite", [], "", [⟨"scripts", [], "", [.script ["a"]]⟩]⟩]⟩
    let root : Element :=
      ⟨"project", [], "", [⟨"scene", [], "", [⟨"scene", [], "", [sprites]⟩]⟩]⟩
    (Spot.visited {} root).map Spot.path = [[0, 0, 0, 0, 0, 0], [0, 0, 0, 0, 0, 0]] ∧
      (root.descendantsNamed "script").length = 1 ∧
      (analyzeProject {} ⟨root, 0⟩).totalScripts = 2 ∧
      (analyzeProject {} ⟨root, 0⟩).duplicateScripts = 1 := by
  intro sprites root
  refine ⟨?_, ?_, ?_, ?_⟩
  · decide +kernel
  · decide +kernel
  · rw [Project.totalScripts_eq]
    decide +kernel
  · rw [Project.duplicateScripts_eq]
    decide +kernel

end Variability
