import Variability.Proofs.Markup.Forest
import Variability.Proofs.Markup.ReadBack

/-! The loader on the nodes of a forest. Reading the reports of a node succeeds
under a condition that can be told from the node alone, and what it then leads to
can be told from the node as well. -/
namespace Variability.Markup
open Text

theorem bind_eq_ok_iff {ε α β : Type} {x : Except ε α} {f : α → Except ε β} {b : β} :
    x >>= f = .ok b ↔ ∃ a, x = .ok a ∧ f a = .ok b := by
  cases x <;> simp [bind, Except.bind]

/-- Reading the reports succeeds exactly when `fine`, and then it leads from `l`
to `m`. -/
def Runs (heavy : String → Bool) (source : ByteArray) (reports : List Token) (l : Loader)
    (fine : Prop) (m : Loader) : Prop :=
  ∀ n, reports.foldlM (Loader.step heavy source) l = .ok n ↔ fine ∧ n = m

namespace Runs
variable {heavy : String → Bool} {source : ByteArray} {ts us : List Token} {t : Token}
  {l m n : Loader} {fine fine' : Prop}

theorem nil (l : Loader) : Runs heavy source [] l True l := by
  intro n
  change Except.ok l = .ok n ↔ _
  rw [true_and, Except.ok.injEq, eq_comm]

theorem append (first : Runs heavy source ts l fine m)
    (second : fine → Runs heavy source us m fine' n) :
    Runs heavy source (ts ++ us) l (fine ∧ fine') n := by
  intro k
  rw [List.foldlM_append, bind_eq_ok_iff]
  constructor
  · rintro ⟨a, head, tail⟩
    obtain ⟨holds, rfl⟩ := (first a).mp head
    obtain ⟨holds', rfl⟩ := (second holds k).mp tail
    exact ⟨⟨holds, holds'⟩, rfl⟩
  · rintro ⟨⟨holds, holds'⟩, rfl⟩
    exact ⟨m, (first m).mpr ⟨holds, rfl⟩, (second holds _).mpr ⟨holds', rfl⟩⟩

theorem congr (h : Runs heavy source ts l fine m) (same : fine ↔ fine') :
    Runs heavy source ts l fine' m := by
  intro n
  rw [h n, same]

theorem single (h : ∀ n, Loader.step heavy source l t = .ok n ↔ fine ∧ n = m) :
    Runs heavy source [t] l fine m := by
  intro n
  rw [List.foldlM_cons, ← h n]
  cases Loader.step heavy source l t with
  | error _ => exact Iff.rfl
  | ok _ => exact Iff.rfl

theorem of_eq_ok (h : Loader.step heavy source l t = .ok m) : Runs heavy source [t] l True m := by
  refine single fun n => ?_
  rw [h, true_and, Except.ok.injEq, eq_comm]

theorem of_eq_ite [Decidable fine] (failure : Failure)
    (h : Loader.step heavy source l t = if fine then .ok m else .error failure) :
    Runs heavy source [t] l fine m := by
  refine single fun n => ?_
  rw [h]
  split
  · rename_i holds
    simp [holds, eq_comm]
  · rename_i fails
    simp [fails]

end Runs

namespace Loader
variable (heavy : String → Bool) (source : ByteArray)

@[simp] theorem decodeSpan_eq_ok_iff (span : Span) (text : String) :
    decodeSpan source span = .ok text ↔
      span.decodes source = true ∧ text = span.decoded source := by
  unfold decodeSpan Span.decodes Span.decoded Span.raw
  cases decode (slice source span.start span.stop) with
  | error bad => simp [Except.isOk, Except.toBool]
  | ok decoded => simp [Except.isOk, Except.toBool, Except.toOption, eq_comm]

@[simp] theorem valueOf_eq_ok_iff (written : Option Span) (value : String) :
    valueOf source written = .ok value ↔
      written.all (·.decodes source) = true ∧ value = (written.map (·.decoded source)).getD "" := by
  cases written with
  | none =>
    change Except.ok "" = .ok value ↔ _ ∧ value = ""
    rw [Except.ok.injEq, eq_comm]
    exact (and_iff_right rfl).symm
  | some span =>
    rw [valueOf, Option.all_some, Option.map_some, Option.getD_some]
    exact decodeSpan_eq_ok_iff source span value

end Loader

section Tags
variable {heavy : String → Bool} {source : ByteArray} (l : Loader) (tag : PendingTag)

private theorem attributeEnd_runs (name : String) (written : Option Span) (quote : Quote)
    (stop : Nat) :
    Runs heavy source [.attributeEnd quote stop]
      { l with pendingTag := some tag, pendingAttribute := some ⟨name, written⟩ }
      (tag.dropped = true ∨ written.all (·.decodes source) = true)
      (l.inTag (tag.extend [(name, (written.map (·.decoded source)).getD "")])) := by
  by_cases fine : tag.dropped = true ∨ written.all (·.decodes source) = true
  · have meant := fine.imp_right fun decodes =>
      (Loader.valueOf_eq_ok_iff source written _).mpr ⟨decodes, rfl⟩
    have loaded := Loader.onAttributeEnd_of_value meant l name
    exact (Runs.of_eq_ok (by rw [Loader.step, loaded])).congr (by simp only [fine])
  · refine Runs.single fun n => iff_of_false (fun loaded => fine ?_) (fun h => fine h.1)
    rw [Loader.step] at loaded
    cases dropped : tag.dropped with
    | true => exact .inl rfl
    | false =>
      right
      cases written with
      | none => rfl
      | some span =>
        simp only [Loader.onAttributeEnd, dropped] at loaded
        obtain ⟨value, meant, _⟩ := bind_eq_ok_iff.mp loaded
        rw [Option.all_some]
        exact ((Loader.decodeSpan_eq_ok_iff source span value).mp meant).1

private theorem attribute_runs (a : AttributeParts) :
    Runs heavy source a.tokens (l.inTag tag) (tag.dropped = true ∨ a.decodes source = true)
      (l.inTag (tag.extend [a.pair source])) := by
  have named : Runs heavy source [.attributeName a.name] (l.inTag tag) True
      (l.inAttribute tag (a.name.raw source)) :=
    Runs.of_eq_ok rfl
  have valued (name : String) : Runs heavy source (a.value.toList.map .attributeValue)
      (l.inAttribute tag name) True
      { l with pendingTag := some tag, pendingAttribute := some ⟨name, a.value⟩ } := by
    cases a.value with
    | none => exact Runs.nil _
    | some span => exact Runs.of_eq_ok rfl
  refine ((named.append fun _ => valued _).append fun _ =>
    attributeEnd_runs l tag _ _ _ _).congr ?_
  simp only [true_and]
  rfl

theorem attributes_runs (attributes : List AttributeParts) :
    Runs heavy source (attributes.flatMap AttributeParts.tokens) (l.inTag tag)
      (tag.dropped = true ∨ attributes.all (·.decodes source) = true)
      (l.inTag (tag.extend (attributes.map (·.pair source)))) := by
  induction attributes generalizing tag with
  | nil =>
    rw [List.map_nil, PendingTag.extend_nil]
    exact (Runs.nil _).congr (by simp)
  | cons a rest ih =>
    have split : (a :: rest).map (·.pair source) =
        [a.pair source] ++ rest.map (·.pair source) := rfl
    rw [split, ← PendingTag.extend_extend]
    refine ((attribute_runs l tag a).append fun _ => ih (tag.extend [a.pair source])).congr ?_
    rw [List.all_cons, Bool.and_eq_true]
    exact or_and_left.symm

def TagParts.pending (source : ByteArray) (dropped : Bool) (parts : TagParts) : PendingTag :=
  PendingTag.extend ⟨parts.tag source, parts.name.start - 1, [], dropped⟩ (parts.values source)

@[simp] theorem TagParts.tag_pending (source : ByteArray) (dropped : Bool) (parts : TagParts) :
    (parts.pending source dropped).tag = parts.tag source := by
  rw [TagParts.pending, PendingTag.extend]

/-- Whether another element may come, which is not so after the root. -/
def Loader.admits (l : Loader) : Bool := !(l.root.isSome && l.opened.isEmpty && !l.isSkipping)

theorem tag_runs {l : Loader} (calm : l.Calm) (parts : TagParts) {dropped : Bool}
    (drops : (l.isSkipping || heavy (parts.tag source)) = dropped) :
    Runs heavy source parts.tokens l
      (l.admits = true ∧ (dropped = true ∨ parts.decodes source = true))
      (l.inTag (parts.pending source dropped)) := by
  let tag : PendingTag := ⟨parts.tag source, parts.name.start - 1, [], dropped⟩
  have opens : Runs heavy source [.startName parts.name] l (l.admits = true) (l.inTag tag) := by
    refine Runs.of_eq_ite ⟨.secondRoot (parts.tag source), parts.name.start - 1⟩ ?_
    obtain ⟨opened, root, _, _, skipped, discarded⟩ := l
    obtain ⟨rfl, rfl⟩ := calm
    subst drops
    unfold Loader.step Loader.onStartName Loader.admits
    cases root.isSome && opened.isEmpty && !Loader.isSkipping _ <;> rfl
  exact opens.append fun _ => attributes_runs l tag parts.attributes

end Tags

section Dropped
variable {heavy : String → Bool} {source : ByteArray} {l : Loader} (calm : l.Calm)
  {parts : TagParts} (drops : (l.isSkipping || heavy (parts.tag source)) = true)

def Loader.drop (l : Loader) : Loader :=
  { l with discarded := if l.isSkipping then l.discarded else l.discarded + 1 }

private theorem Loader.drop_of_skipping (skipping : l.isSkipping = true) : l.drop = l := by
  simp [drop, skipping]

include calm drops

theorem dropped_start_runs (stop : Nat) :
    Runs heavy source (Phrase.start parts stop).tokens l (l.admits = true)
      { l.drop with skipped := parts.tag source :: l.skipped } := by
  have loaded := Loader.onStartEnd_dropped calm
    (show (parts.pending source true).dropped = true from rfl) false
  have ended : Runs heavy source [.startEnd stop] (l.inTag (parts.pending source true)) True
      { l.drop with skipped := parts.tag source :: l.skipped } :=
    Runs.of_eq_ok (by rw [Loader.step, loaded, TagParts.tag_pending]; rfl)
  exact ((tag_runs calm parts drops).append fun _ => ended).congr (by simp)

theorem dropped_empty_runs (stop : Nat) :
    Runs heavy source (Phrase.empty parts stop).tokens l (l.admits = true) l.drop := by
  have loaded := Loader.onStartEnd_dropped calm
    (show (parts.pending source true).dropped = true from rfl) true
  have ended : Runs heavy source [.emptyEnd stop] (l.inTag (parts.pending source true)) True
      l.drop :=
    Runs.of_eq_ok (by rw [Loader.step, loaded]; rfl)
  exact ((tag_runs calm parts drops).append fun _ => ended).congr (by simp)

end Dropped

section Skipped
variable {heavy : String → Bool} {source : ByteArray}

theorem skipped_leaf_runs (leaf : Leaf) {l : Loader} (skipping : l.isSkipping = true) :
    Runs heavy source [leaf.token] l True l := by
  cases leaf with
  | text span => exact Runs.of_eq_ok (if_pos skipping)
  | cdata span => exact Runs.of_eq_ok (if_pos skipping)
  | comment span => exact Runs.of_eq_ok rfl
  | instruction span => exact Runs.of_eq_ok rfl

theorem skipped_close_runs (l : Loader) (tag : String) (close : Span) :
    Runs heavy source [.endName close] { l with skipped := tag :: l.skipped }
      (tag = close.raw source) l := by
  refine Runs.of_eq_ite ⟨.mismatchedEndTag tag (close.raw source), close.start - 2⟩ ?_
  by_cases same : tag = close.raw source
  · simp [Loader.step, Loader.onEndName, same, Span.raw]
  · have differ : ¬ tag = slice source close.start close.stop := same
    simp [Loader.step, Loader.onEndName, differ, Span.raw]

private theorem Loader.admits_of_skipping {l : Loader} (skipping : l.isSkipping = true) :
    l.admits = true := by
  simp [admits, skipping]

/-- An element that is dropped is checked for the names of its tags only, given
that this is so for its content. -/
theorem dropped_element_runs {l : Loader} (calm : l.Calm) {parts : TagParts}
    (drops : (l.isSkipping || heavy (parts.tag source)) = true) (stop : Nat) {content : List Node}
    (close : Span)
    (below : ∀ {m : Loader}, m.Calm → m.isSkipping = true →
      Runs heavy source (Forest.tokens content) m (Forest.matched source content = true) m) :
    Runs heavy source (Node.element parts stop content close).tokens l
      (l.admits = true ∧ (Node.element parts stop content close).matched source = true) l.drop := by
  let inner : Loader := { l.drop with skipped := parts.tag source :: l.skipped }
  have opening : Runs heavy source _ l _ inner := dropped_start_runs calm drops stop
  have content := below (m := inner) calm rfl
  have closing : Runs heavy source [.endName close] inner _ l.drop :=
    skipped_close_runs l.drop (parts.tag source) close
  rw [Node.tokens_element]
  refine ((opening.append fun _ => content).append fun _ => closing).congr ?_
  rw [Node.matched, Bool.and_eq_true, beq_iff_eq, and_assoc, and_comm (a := parts.tag source = _)]

mutual
theorem Node.skipped_runs : (n : Node) → {l : Loader} → l.Calm → l.isSkipping = true →
    Runs heavy source n.tokens l (n.matched source = true) l
  | .leaf leaf, l, _, skipping => by
    rw [Node.tokens_leaf]
    exact (skipped_leaf_runs leaf skipping).congr (by simp [Node.matched])
  | .empty parts stop, l, calm, skipping => by
    have drops : (l.isSkipping || heavy (parts.tag source)) = true := by
      rw [skipping, Bool.true_or]
    have whole := dropped_empty_runs calm drops stop
    rw [Loader.drop_of_skipping skipping] at whole
    rw [Node.tokens_empty]
    exact whole.congr (by simp [Node.matched, Loader.admits_of_skipping skipping])
  | .element parts stop content close, l, calm, skipping => by
    have drops : (l.isSkipping || heavy (parts.tag source)) = true := by
      rw [skipping, Bool.true_or]
    have whole := dropped_element_runs calm drops stop close (Forest.skipped_runs content)
    rw [Loader.drop_of_skipping skipping] at whole
    exact whole.congr (by simp [Loader.admits_of_skipping skipping])

theorem Forest.skipped_runs : (nodes : List Node) → {l : Loader} → l.Calm → l.isSkipping = true →
    Runs heavy source (Forest.tokens nodes) l (Forest.matched source nodes = true) l
  | [], l, _, _ => by
    rw [Forest.tokens_nil]
    exact (Runs.nil l).congr (by simp [Forest.matched])
  | n :: rest, l, calm, skipping => by
    have first := Node.skipped_runs n calm skipping
    have later := Forest.skipped_runs rest calm skipping
    rw [Forest.tokens_cons]
    exact (first.append fun _ => later).congr (by simp [Forest.matched])
end

theorem Node.dropped_runs {n : Node} {parts : TagParts} (tagged : n.parts? = some parts)
    {l : Loader} (calm : l.Calm) (drops : (l.isSkipping || heavy (parts.tag source)) = true) :
    Runs heavy source n.tokens l (l.admits = true ∧ n.matched source = true) l.drop := by
  cases n with
  | leaf l => contradiction
  | empty own stop =>
    obtain rfl : own = parts := Option.some.inj tagged
    rw [Node.tokens_empty]
    exact (dropped_empty_runs calm drops stop).congr (by simp [Node.matched])
  | element own stop content close =>
    obtain rfl : own = parts := Option.some.inj tagged
    exact dropped_element_runs calm drops stop close (Forest.skipped_runs content)

end Skipped

section Fits
variable (heavy : String → Bool) (source : ByteArray)

/-- What an element that is kept asks of what is in it, when `outer` elements are
open. -/
structure Node.Fits (outer : Nat) (n : Node) : Prop where
  matched : n.matched source = true
  decodes : n.decodes heavy source = true
  shallow : outer + n.depth heavy source ≤ maxDepth

structure Forest.Fits (outer : Nat) (nodes : List Node) : Prop where
  matched : Forest.matched source nodes = true
  decodes : Forest.decodes heavy source nodes = true
  shallow : outer + Forest.depth heavy source nodes ≤ maxDepth

variable {heavy source} {outer : Nat}

@[simp] theorem Forest.fits_nil (room : outer ≤ maxDepth) : Forest.Fits heavy source outer [] :=
  ⟨rfl, rfl, room⟩

@[simp] theorem Forest.fits_cons_iff (n : Node) (rest : List Node) :
    Forest.Fits heavy source outer (n :: rest) ↔
      n.Fits heavy source outer ∧ Forest.Fits heavy source outer rest := by
  constructor
  · rintro ⟨matched, decodes, shallow⟩
    rw [Forest.matched, Bool.and_eq_true] at matched
    rw [Forest.decodes, Bool.and_eq_true] at decodes
    rw [Forest.depth] at shallow
    exact ⟨⟨matched.1, decodes.1, by omega⟩, ⟨matched.2, decodes.2, by omega⟩⟩
  · rintro ⟨first, later⟩
    refine ⟨?_, ?_, ?_⟩
    · rw [Forest.matched, first.matched, later.matched, Bool.and_true]
    · rw [Forest.decodes, first.decodes, later.decodes, Bool.and_true]
    · rw [Forest.depth]
      have := first.shallow
      have := later.shallow
      omega

private theorem Node.fits_leaf_iff (room : outer ≤ maxDepth) (l : Leaf) :
    (leaf l).Fits heavy source outer ↔ l.decodes source = true :=
  ⟨fun h => h.decodes, fun decodes => ⟨rfl, decodes, room⟩⟩

private theorem Node.fits_heavy_iff (room : outer ≤ maxDepth) {n : Node} {parts : TagParts}
    (tagged : n.parts? = some parts) (isHeavy : heavy (parts.tag source) = true) :
    n.Fits heavy source outer ↔ n.matched source = true := by
  refine ⟨fun h => h.matched, fun matched => ⟨matched, ?_, ?_⟩⟩
  all_goals
    cases n with
    | leaf l => contradiction
    | empty own stop | element own stop content close =>
      obtain rfl : own = parts := Option.some.inj tagged
      simp [decodes, depth, isHeavy, room]

private theorem Node.fits_empty_iff {parts : TagParts} (light : heavy (parts.tag source) = false)
    (stop : Nat) :
    (empty parts stop).Fits heavy source outer ↔
      parts.decodes source = true ∧ outer < maxDepth := by
  constructor
  · rintro ⟨_, decodes, shallow⟩
    simp only [Node.decodes, Node.depth, light, Bool.false_or, Bool.false_eq_true, if_false] at *
    exact ⟨decodes, shallow⟩
  · rintro ⟨decodes, room⟩
    refine ⟨rfl, by simp [Node.decodes, decodes], ?_⟩
    simpa [Node.depth, light, Nat.succ_le_iff] using room

private theorem Node.fits_element_iff {parts : TagParts} (light : heavy (parts.tag source) = false)
    (stop : Nat) (content : List Node) (close : Span) :
    (element parts stop content close).Fits heavy source outer ↔
      (parts.decodes source = true ∧ outer < maxDepth) ∧
        Forest.Fits heavy source (outer + 1) content ∧ parts.tag source = close.raw source := by
  constructor
  · rintro ⟨matched, decodes, shallow⟩
    simp only [Node.matched, Node.decodes, Node.depth, light, Bool.false_or, Bool.false_eq_true,
      if_false, Bool.and_eq_true, beq_iff_eq] at *
    exact ⟨⟨decodes.1, by omega⟩, ⟨matched.2, decodes.2, by omega⟩, matched.1⟩
  · rintro ⟨⟨decodes, _⟩, content, same⟩
    refine ⟨?_, ?_, ?_⟩
    · simp [Node.matched, same, content.matched]
    · simp [Node.decodes, decodes, content.decodes]
    · have := content.shallow
      simp only [Node.depth, light, Bool.false_eq_true, if_false]
      omega

end Fits

section Kept
variable {heavy : String → Bool} {source : ByteArray} {opened : List OpenElement}
  {root : Option Element} {d : Nat}

@[simp] theorem Loader.admits_opened (parent : OpenElement) (outer : List OpenElement) :
    (Loader.mk (parent :: outer) root none none [] d).admits = true := by
  simp [admits]

theorem kept_leaf_runs (leaf : Leaf) (parent : OpenElement) (outer : List OpenElement) :
    Runs heavy source [leaf.token] { opened := parent :: outer, root, discarded := d }
      (leaf.decodes source = true)
      { opened := (leaf.items source).foldl .take parent :: outer, root, discarded := d } := by
  let l : Loader := { opened := parent :: outer, root, discarded := d }
  have busy : ¬ l.isSkipping = true := nofun
  have inside : ¬ l.opened.isEmpty = true := nofun
  cases leaf with
  | text span =>
    refine Runs.single fun n => ?_
    rw [Leaf.token, Loader.step, Loader.onText, if_neg busy, if_neg inside, bind_eq_ok_iff,
      Leaf.decodes, Leaf.items, List.foldl_cons, List.foldl_nil]
    constructor
    · rintro ⟨text, meant, loaded⟩
      obtain ⟨decodes, same⟩ := (Loader.decodeSpan_eq_ok_iff source span text).mp meant
      rw [Loader.addText_opened, same] at loaded
      exact ⟨decodes, (Except.ok.inj loaded).symm⟩
    · rintro ⟨decodes, loaded⟩
      have meant := (Loader.decodeSpan_eq_ok_iff source span _).mpr ⟨decodes, rfl⟩
      exact ⟨_, meant, by rw [Loader.addText_opened, loaded]⟩
  | cdata span =>
    refine (Runs.of_eq_ok ?_).congr (iff_of_true trivial rfl)
    rw [Leaf.token, Loader.step, Loader.onCdata, if_neg busy, Loader.addText_opened, Leaf.items,
      List.foldl_cons, List.foldl_nil, Span.raw]
  | comment span | instruction span =>
    rw [Leaf.items, List.foldl_nil]
    exact (Runs.of_eq_ok rfl).congr (iff_of_true trivial rfl)

def TagParts.fresh (source : ByteArray) (parts : TagParts) : OpenElement :=
  { tag := parts.tag source, attributes := parts.values source }

private theorem TagParts.onStartEnd_pending (parts : TagParts) (empty : Bool) :
    (Loader.inTag { opened, root, discarded := d } (parts.pending source false)).onStartEnd empty =
      if opened.length < maxDepth then
        .ok (if empty then .add { opened, root, discarded := d } (parts.fresh source).close
          else { opened := parts.fresh source :: opened, root, discarded := d })
      else .error ⟨.tooDeep (parts.tag source), parts.name.start - 1⟩ := by
  by_cases room : opened.length < maxDepth
  · simp [Loader.onStartEnd, Loader.inTag, TagParts.pending, PendingTag.extend, TagParts.fresh,
      Nat.not_le_of_lt room, room]
  · simp [Loader.onStartEnd, Loader.inTag, TagParts.pending, PendingTag.extend,
      Nat.le_of_not_lt room, room]

theorem kept_close_runs (parent : OpenElement) (close : Span) :
    Runs heavy source [.endName close] { opened := parent :: opened, root, discarded := d }
      (parent.tag = close.raw source) (.add { opened, root, discarded := d } parent.close) := by
  refine Runs.of_eq_ite ⟨.mismatchedEndTag parent.tag (close.raw source), close.start - 2⟩ ?_
  by_cases same : parent.tag = close.raw source
  · rw [Loader.step, Loader.onEndName_opened same, if_pos same]
  · have differ : ¬ parent.tag = slice source close.start close.stop := same
    simp [Loader.step, Loader.onEndName, differ, Span.raw]

def ContentRuns (heavy : String → Bool) (source : ByteArray) (nodes : List Node) : Prop :=
  ∀ parent outer root d, outer.length < maxDepth →
    Runs heavy source (Forest.tokens nodes) { opened := parent :: outer, root, discarded := d }
      (Forest.Fits heavy source (outer.length + 1) nodes)
      { opened := (Forest.items heavy source nodes).foldl .take parent :: outer, root,
        discarded := d + Forest.discarded heavy source nodes }

private theorem contentRuns_nil : ContentRuns heavy source [] := fun _ _ _ _ room =>
  (Runs.nil _).congr (iff_of_true trivial (Forest.fits_nil room))

section Light
variable {parts : TagParts} (light : heavy (parts.tag source) = false) (stop : Nat)
include light

theorem kept_tag_runs (empty : Bool) {ending : Token}
    (ends : ∀ l, Loader.step heavy source l ending = l.onStartEnd empty) :
    Runs heavy source (parts.tokens ++ [ending]) { opened, root, discarded := d }
      ((Loader.mk opened root none none [] d).admits = true ∧
        parts.decodes source = true ∧ opened.length < maxDepth)
      (if empty then .add { opened, root, discarded := d } (parts.fresh source).close
        else { opened := parts.fresh source :: opened, root, discarded := d }) := by
  let l : Loader := { opened, root, discarded := d }
  have tag : Runs heavy source parts.tokens l _ (l.inTag (parts.pending source false)) :=
    tag_runs ⟨rfl, rfl⟩ parts light
  have ended := (ends (l.inTag (parts.pending source false))).trans (parts.onStartEnd_pending empty)
  refine (tag.append fun _ => Runs.of_eq_ite _ ended).congr ?_
  rw [and_assoc]
  simp [l]

private theorem kept_empty_runs :
    Runs heavy source (Node.empty parts stop).tokens { opened, root, discarded := d }
      ((Loader.mk opened root none none [] d).admits = true ∧
        (Node.empty parts stop).Fits heavy source opened.length)
      (.add { opened, root, discarded := d }
        (Item.assemble (parts.tag source) (parts.values source) [])) := by
  have whole : Runs heavy source (Phrase.empty parts stop).tokens { opened, root, discarded := d } _
      (.add { opened, root, discarded := d } (parts.fresh source).close) :=
    kept_tag_runs light true fun _ => rfl
  rw [Node.tokens_empty, Node.fits_empty_iff light, ← OpenElement.close_foldl_take, List.foldl_nil]
  exact whole

private theorem kept_element_runs (content : List Node) (close : Span)
    (below : ContentRuns heavy source content) :
    Runs heavy source (Node.element parts stop content close).tokens
      { opened, root, discarded := d }
      ((Loader.mk opened root none none [] d).admits = true ∧
        (Node.element parts stop content close).Fits heavy source opened.length)
      (.add { opened, root, discarded := d + Forest.discarded heavy source content }
        (Item.assemble (parts.tag source) (parts.values source)
          (Forest.items heavy source content))) := by
  -- the element as it stands when its end tag comes
  let last := (Forest.items heavy source content).foldl OpenElement.take (parts.fresh source)
  have same : last.tag = parts.tag source := by
    simp only [last, OpenElement.foldl_take, TagParts.fresh]
  have opening : Runs heavy source (Phrase.start parts stop).tokens
      { opened, root, discarded := d } _
      { opened := parts.fresh source :: opened, root, discarded := d } :=
    kept_tag_runs light false fun _ => rfl
  have closing : Runs heavy source [.endName close]
      { opened := last :: opened, root, discarded := d + Forest.discarded heavy source content } _
      (.add { opened, root, discarded := d + Forest.discarded heavy source content } last.close) :=
    kept_close_runs last close
  rw [same, show last.close = _ from OpenElement.close_foldl_take _ _ _] at closing
  rw [Node.tokens_element, Node.fits_element_iff light]
  refine ((opening.append fun fine => below _ _ _ _ fine.2.2).append fun _ => closing).congr ?_
  simp only [and_assoc]

end Light

theorem Node.light_runs {n : Node} {parts : TagParts} (tagged : n.parts? = some parts)
    (light : heavy (parts.tag source) = false) (below : ContentRuns heavy source n.content) :
    Runs heavy source n.tokens { opened, root, discarded := d }
      ((Loader.mk opened root none none [] d).admits = true ∧
        n.Fits heavy source opened.length)
      (.add { opened, root, discarded := d + n.discarded heavy source }
        (Item.assemble (parts.tag source) (parts.values source)
          (Forest.items heavy source n.content))) := by
  rw [Node.discarded_of_tagged heavy source tagged, light, if_neg Bool.false_ne_true]
  cases n with
  | leaf l => contradiction
  | empty own stop =>
    obtain rfl : own = parts := Option.some.inj tagged
    exact kept_empty_runs light stop
  | element own stop content close =>
    obtain rfl : own = parts := Option.some.inj tagged
    exact kept_element_runs light stop content close below

theorem Node.runs_of_content {n : Node} {parts : TagParts} (tagged : n.parts? = some parts)
    (below : ContentRuns heavy source n.content) (parent : OpenElement)
    (outer : List OpenElement) (room : outer.length < maxDepth) :
    Runs heavy source n.tokens { opened := parent :: outer, root, discarded := d }
      (n.Fits heavy source (outer.length + 1))
      { opened := (n.items heavy source).foldl .take parent :: outer, root,
        discarded := d + n.discarded heavy source } := by
  have admits : (Loader.mk (parent :: outer) root none none [] d).admits = true :=
    Loader.admits_opened parent outer
  cases tag : heavy (parts.tag source) with
  | true =>
    let l : Loader := { opened := parent :: outer, root, discarded := d }
    have dropped : Runs heavy source n.tokens l _ l.drop :=
      Node.dropped_runs tagged ⟨rfl, rfl⟩ (by rw [tag, Bool.or_true])
    rw [Node.items_of_tagged heavy source tagged, Node.discarded_of_tagged heavy source tagged,
      if_pos tag, if_pos tag, Node.fits_heavy_iff room tagged tag]
    exact dropped.congr (and_iff_right admits)
  | false =>
    rw [Node.items_of_tagged heavy source tagged, tag, if_neg Bool.false_ne_true]
    exact (Node.light_runs tagged tag below).congr (and_iff_right admits)

mutual
theorem Node.kept_runs : (n : Node) → (parent : OpenElement) → (outer : List OpenElement) →
    (root : Option Element) → (d : Nat) → outer.length < maxDepth →
    Runs heavy source n.tokens { opened := parent :: outer, root, discarded := d }
      (n.Fits heavy source (outer.length + 1))
      { opened := (n.items heavy source).foldl .take parent :: outer, root,
        discarded := d + n.discarded heavy source }
  | .leaf leaf, parent, outer, root, d, room => by
    rw [Node.tokens_leaf, Node.items, Node.discarded, Nat.add_zero]
    exact (kept_leaf_runs leaf parent outer).congr (Node.fits_leaf_iff room leaf).symm
  | .empty _ _, parent, outer, _, _, room =>
    Node.runs_of_content rfl contentRuns_nil parent outer room
  | .element _ _ content _, parent, outer, _, _, room =>
    Node.runs_of_content rfl (Forest.kept_runs content) parent outer room

theorem Forest.kept_runs : (nodes : List Node) → ContentRuns heavy source nodes
  | [] => contentRuns_nil
  | n :: rest => fun parent outer root d room => by
    rw [Forest.tokens_cons, Forest.items, Forest.discarded, List.foldl_append, ← Nat.add_assoc]
    have first := Node.kept_runs n parent outer root d room
    have later := Forest.kept_runs rest ((n.items heavy source).foldl .take parent) outer root
      (d + n.discarded heavy source) room
    exact (first.append fun _ => later).congr (Forest.fits_cons_iff n rest).symm
end

end Kept
end Variability.Markup
