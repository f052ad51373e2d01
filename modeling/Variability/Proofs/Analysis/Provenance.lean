import Variability.Proofs.Analysis.Accounting
import Variability.Proofs.Analysis.Invariant
import Variability.Proofs.Script.Binding
import Variability.Proofs.Script.Source
import Variability.Proofs.Script.Target
import Variability.Proofs.Text.Trim

/-! Where the names in a result come from. An owner is the stage, a scene or a sprite of
the tree; the name of a block is that of a call or of a definition in the tree. The names
that variables stand for were read from definitions, however far they were carried. -/
namespace Variability
namespace Element

def NamesOwner (tree : Element) (owner : String) : Prop :=
  owner = "Global" ∨ owner = "Stage" ∨ owner = "(unnamed sprite)" ∨
    ∃ sprite, tree.Holds sprite ∧ sprite.tag = "sprite" ∧ sprite.attr? "name" = some owner ∧
      owner ≠ ""

def Calls (tree : Element) (name : String) : Prop :=
  ∃ node written, tree.Holds node ∧ node.tag = "custom-block" ∧ node.attr? "s" = some written ∧
    Text.trim written = name

def Defines (tree : Element) (name : String) : Prop :=
  ∃ node second, tree.Holds node ∧ node.tag = "block" ∧ node.selector = "doDefineBlock" ∧
    (node.childrenNamed "l")[1]? = some second ∧ Text.trim second.text = name

/-- The tree has a block of that name, and the name is written as trimming leaves it. -/
structure NamesBlock (tree : Element) (name : String) : Prop where
  ne_empty : name ≠ ""
  trimmed : Text.Trimmed name
  source : tree.Calls name ∨ tree.Defines name

theorem NamesBlock.of_holds {tree node : Element} {name : String} (held : tree.Holds node)
    (named : node.NamesBlock name) : tree.NamesBlock name where
  ne_empty := named.ne_empty
  trimmed := named.trimmed
  source := by
    rcases named.source with ⟨call, written, inside, rest⟩ | ⟨block, second, inside, rest⟩
    · exact .inl ⟨call, written, held.trans inside, rest⟩
    · exact .inr ⟨block, second, held.trans inside, rest⟩

private theorem namesBlock_of_selector {tree node : Element} {name : String}
    (held : tree.Holds node)
    (tagged : node.tag = "custom-block") (named : node.selector = name) (filled : name ≠ "") :
    tree.NamesBlock name where
  ne_empty := filled
  trimmed := named ▸ Text.trimmed_trim _
  source := by
    left
    cases written : node.attr? "s" with
    | none =>
      rw [selector, written] at named
      exact (filled named.symm).elim
    | some text =>
      rw [selector, written] at named
      exact ⟨node, text, held, tagged, written, named⟩

end Element

namespace Resolution

theorem namesBlock_of_firstNamed? {tree : Element} {name : String}
    (found : firstNamed? tree = some name) : tree.NamesBlock name := by
  unfold firstNamed? at found
  have filled := bne_iff_ne.mp (List.find?_some (p := fun selector => selector != "") found)
  obtain ⟨node, candidate, named⟩ := List.mem_map.mp (List.mem_of_find?_eq_some found)
  split at candidate
  · rename_i tagged
    rw [List.mem_singleton.mp candidate] at named
    exact Element.namesBlock_of_selector (.itself tree) (beq_iff_eq.mp tagged) named filled
  · obtain ⟨held, tagged⟩ := List.mem_filter.mp candidate
    exact Element.namesBlock_of_selector ((Element.mem_descendants_iff tree node).mp held)
      (beq_iff_eq.mp tagged) named filled

/-- A block that is told is bound to a variable, or named in the expression. -/
theorem target?_source {bindings : Bindings} {target : Element} {name : String}
    (known : (ofElement bindings target).target? = some name) :
    (∃ v : String, bindings[v]? = some name) ∨ target.NamesBlock name := by
  cases read : target.variableName? with
  | some v =>
    rw [target?_of_variable bindings target v read] at known
    exact .inl ⟨v, known⟩
  | none =>
    rw [target?_of_no_variable bindings read] at known
    exact .inr (namesBlock_of_firstNamed? known)

end Resolution

theorem Place.namesBlock_of_binding {isFeature : String → Bool} {e : Element} {m : Place}
    {v name : String}
    (bound : (m.scope isFeature (Script.ofElement e).statements {}).bindings[v]? = some name) :
    e.NamesBlock name := by
  rw [Place.getElem?_bindings_scope, Std.TreeMap.getElem?_emptyc, Option.or_none] at bound
  obtain ⟨d, _, found, _⟩ := Place.exists_lastDefine v name m _ bound
  obtain ⟨node, held, tagged, operation, second, listed, same, filled⟩ := Script.exists_block found
  exact {
    ne_empty := filled
    trimmed := same ▸ Text.trimmed_trim _
    source := .inr ⟨node, second, held, tagged, operation, listed, same⟩ }

theorem Script.namesBlock_of_target {isFeature : String → Bool} {e : Element} {change : Mutation}
    {name : String} (made : change ∈ (Script.ofElement e).mutations isFeature)
    (known : change.resolution.target? = some name) : e.NamesBlock name := by
  rw [Script.mutations_eq] at made
  obtain ⟨m, _, there⟩ := List.mem_filterMap.mp made
  unfold Place.change? at there
  split at there
  · rename_i attr target value found
    rw [← Option.some.inj there] at known
    rcases Resolution.target?_source known with ⟨v, bound⟩ | named
    · exact Place.namesBlock_of_binding bound
    · obtain ⟨node, held, _, listed⟩ := Script.exists_block found
      exact named.of_holds (held.trans (Element.holds_of_mem_children listed))
  · contradiction

private theorem Outline.holds_of_mem_scenesOrRoot {root scene : Element}
    (listed : scene ∈ scenesOrRoot root) : root.Holds scene := by
  unfold scenesOrRoot at listed
  split at listed
  · rw [List.mem_singleton.mp listed]
    exact .itself root
  · exact Element.holds_of_mem_properDescendants (List.mem_filter.mp listed).1

private theorem Outline.namesOwner_spriteName {tree sprite : Element} (held : tree.Holds sprite)
    (tagged : sprite.tag = "sprite") : tree.NamesOwner (spriteName sprite) := by
  unfold spriteName
  cases named : (sprite.attr? "name").filter (· != "") with
  | none => exact .inr (.inr (.inl rfl))
  | some name =>
    obtain ⟨written, filled⟩ := Option.filter_eq_some_iff.mp named
    exact .inr (.inr (.inr ⟨sprite, held, tagged, written, bne_iff_ne.mp filled⟩))

private theorem Outline.holds_of_mem_owners {scene : Element} {owner : Owner}
    (listed : owner ∈ owners scene) : scene.Holds owner.element ∧ scene.NamesOwner owner.name := by
  rcases List.mem_append.mp listed with stage | sprite
  · obtain ⟨element, found, rfl⟩ := Option.map_eq_some_iff.mp (Option.mem_toList.mp stage)
    exact ⟨Element.holds_of_child? found, .inr (.inl rfl)⟩
  · obtain ⟨element, inside, rfl⟩ := List.mem_map.mp sprite
    obtain ⟨group, kept, below⟩ := List.mem_flatMap.mp inside
    have held : scene.Holds element :=
      (Element.holds_of_mem_properDescendants (List.mem_filter.mp kept).1).trans
        (Element.holds_of_mem_childrenNamed below)
    exact ⟨held, namesOwner_spriteName held (beq_iff_eq.mp (List.mem_filter.mp below).2)⟩

theorem Element.NamesOwner.of_holds {tree node : Element} {owner : String} (held : tree.Holds node)
    (named : node.NamesOwner owner) : tree.NamesOwner owner := by
  rcases named with scene | stage | unnamed | ⟨sprite, inside, rest⟩
  · exact .inl scene
  · exact .inr (.inl stage)
  · exact .inr (.inr (.inl unnamed))
  · exact .inr (.inr (.inr ⟨sprite, held.trans inside, rest⟩))

namespace Visit

private theorem mem_ofDefinitions {settings : Settings} {owner : String} {holder : Element}
    {v : Visit}
    (listed : v ∈ ofDefinitions settings owner holder) :
    v.owner = owner ∧ holder.Holds v.script := by
  obtain ⟨d, defined, kept⟩ := List.mem_filterMap.mp listed
  split at kept
  · contradiction
  · split at kept
    · contradiction
    · obtain ⟨body, found, rfl⟩ := Option.map_eq_some_iff.mp kept
      unfold Outline.definitions at defined
      split at defined
      · rename_i blocks below
        obtain ⟨element, inside, rfl⟩ := List.mem_map.mp defined
        exact ⟨rfl, (Element.holds_of_child? below).trans
          ((Element.holds_of_mem_childrenNamed inside).trans (Element.holds_of_child? found))⟩
      · contradiction

private theorem mem_ofOwner {settings : Settings} {owner : Owner} {v : Visit}
    (listed : v ∈ ofOwner settings owner) :
    v.owner = owner.name ∧ owner.element.Holds v.script := by
  rcases List.mem_append.mp listed with body | script
  · exact mem_ofDefinitions body
  · obtain ⟨element, inside, rfl⟩ := List.mem_map.mp script
    unfold Outline.scripts at inside
    split at inside
    · rename_i list below
      exact ⟨rfl, (Element.holds_of_child? below).trans (Element.holds_of_mem_childrenNamed inside)⟩
    · contradiction

theorem mem_ofRoot {settings : Settings} {root : Element} {v : Visit}
    (listed : v ∈ ofRoot settings root) : root.Holds v.script ∧ root.NamesOwner v.owner := by
  obtain ⟨scene, known, inside⟩ := List.mem_flatMap.mp listed
  have held := Outline.holds_of_mem_scenesOrRoot known
  rcases List.mem_append.mp inside with body | owned
  · obtain ⟨owner, below⟩ := mem_ofDefinitions body
    exact ⟨held.trans below, .inl owner⟩
  · obtain ⟨owner, known, below⟩ := List.mem_flatMap.mp owned
    obtain ⟨there, named⟩ := Outline.holds_of_mem_owners known
    obtain ⟨same, deeper⟩ := mem_ofOwner below
    exact ⟨held.trans (there.trans deeper), same ▸ named.of_holds held⟩

end Visit

theorem Project.names_of_event {settings : Settings} {p : Project} {e : Event}
    (made : e ∈ p.events settings) :
    p.root.NamesOwner e.owner ∧ ∀ key, e.key? = some key →
      key.owner = e.owner ∧ p.root.NamesBlock key.name := by
  obtain ⟨v, visited, own⟩ := List.mem_flatMap.mp made
  obtain ⟨change, there, rfl⟩ := List.mem_map.mp own
  obtain ⟨held, named⟩ := Visit.mem_ofRoot visited
  refine ⟨named, fun key known => ?_⟩
  obtain ⟨name, target, rfl⟩ := Option.map_eq_some_iff.mp known
  exact ⟨rfl, (Script.namesBlock_of_target there target).of_holds held⟩

/-- Every block and every unknown event of a result has an owner that the tree names, and
every block is one that the tree calls or defines. -/
theorem analyzeProject_provenance (settings : Settings) (p : Project) :
    let result := analyzeProject settings p
    (∀ key ∈ result.blocks, p.root.NamesOwner key.owner ∧ p.root.NamesBlock key.name) ∧
      ∀ e ∈ result.unknownEvents, p.root.NamesOwner e.owner := by
  intro result
  constructor
  · intro key listed
    rw [show result.blocks = _ from analyzeProject_blocks settings p, Event.mem_blocks_iff]
      at listed
    obtain ⟨e, made, known⟩ := listed
    obtain ⟨owner, block⟩ := Project.names_of_event made
    obtain ⟨same, named⟩ := block key known
    exact ⟨same ▸ owner, named⟩
  · intro unknown listed
    rw [show result.unknownEvents = _ from analyzeProject_unknownEvents settings p] at listed
    obtain ⟨e, made, rfl⟩ := Event.mem_listed listed
    exact (Project.names_of_event made).1

end Variability
