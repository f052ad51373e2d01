import Variability.Proofs.Element.Exchange
import Variability.Proofs.Markup.Displacement

/-! Two loaders that differ in the text of one element. Nothing that the loader does
depends on the text that it has, so the same reports lead both to the same end, and the
trees differ in the text of that element alone. -/
namespace Variability.Markup
open Text Element

section Trees
variable {parent : OpenElement} {x y : String}

/-- The trees are the same but for the text of one element, which has the tag and the
attributes of `parent`. The text begins with `x` in one and with `y` in the other, and
goes on with `after` in both. -/
def Retold (parent : OpenElement) (x y : String) (tree other : Element) : Prop :=
  ∃ after children, Swap ⟨parent.tag, parent.attributes, x ++ after, children⟩
    ⟨parent.tag, parent.attributes, y ++ after, children⟩ tree other

/-- The element is among those that are open, or has been closed within one of them. -/
inductive OpenElement.Parted (parent : OpenElement) (x y : String) :
    OpenElement → OpenElement → Prop
  | here (after : String) (children : List Element) :
    Parted parent x y ⟨parent.tag, parent.attributes, x ++ after, children⟩
      ⟨parent.tag, parent.attributes, y ++ after, children⟩
  | inside {tag : String} {attributes : List (String × String)} {text : String}
      (behind before : List Element) {c d : Element} (retold : Retold parent x y c d) :
    Parted parent x y ⟨tag, attributes, text, behind ++ c :: before⟩
      ⟨tag, attributes, text, behind ++ d :: before⟩

namespace OpenElement
variable {o p : OpenElement}

private theorem Parted.tag (parted : Parted parent x y o p) : o.tag = p.tag := by
  cases parted <;> rfl

private theorem Parted.take (parted : Parted parent x y o p) (item : Item) :
    Parted parent x y (o.take item) (p.take item) := by
  cases parted with
  | here after children =>
    cases item with
    | child e => exact .here after (e :: children)
    | text part =>
      unfold OpenElement.take
      dsimp only
      split
      · exact .here after children
      · rw [String.append_assoc, String.append_assoc]
        exact .here (after ++ part) children
  | inside behind before retold =>
    cases item with
    | child e => exact .inside (e :: behind) before retold
    | text part =>
      have full (e : Element) : (behind ++ e :: before).isEmpty = false := by simp
      simp only [OpenElement.take, full, Bool.not_false, Bool.or_true, if_true]
      exact .inside behind before retold

private theorem Parted.close (parted : Parted parent x y o p) :
    Retold parent x y o.close p.close := by
  cases parted with
  | here after children => exact ⟨after, children.reverse, .here⟩
  | inside behind before retold =>
    obtain ⟨after, children, swap⟩ := retold
    refine ⟨after, children, ?_⟩
    simp only [OpenElement.close, List.reverse_append, List.reverse_cons, List.append_assoc,
      List.singleton_append]
    exact .inside swap

end OpenElement

/-- The element is in what is open, or in the root. The lists are innermost first. -/
inductive Diverge (parent : OpenElement) (x y : String) :
    List OpenElement → Option Element → List OpenElement → Option Element → Prop
  | opened (inner outer : List OpenElement) {o p : OpenElement}
      (parted : OpenElement.Parted parent x y o p) :
    Diverge parent x y (inner ++ o :: outer) none (inner ++ p :: outer) none
  | closed (os : List OpenElement) {c d : Element} (retold : Retold parent x y c d) :
    Diverge parent x y os (some c) os (some d)

namespace Diverge
variable {os ps : List OpenElement} {r s : Option Element}

theorem length (apart : Diverge parent x y os r ps s) : os.length = ps.length := by
  cases apart with
  | opened => simp
  | closed => rfl

theorem isEmpty (apart : Diverge parent x y os r ps s) : os.isEmpty = ps.isEmpty := by
  cases apart with
  | opened inner => cases inner <;> rfl
  | closed => rfl

theorem isSome (apart : Diverge parent x y os r ps s) : r.isSome = s.isSome := by
  cases apart <;> rfl

theorem push (apart : Diverge parent x y os r ps s) (o : OpenElement) :
    Diverge parent x y (o :: os) r (o :: ps) s := by
  cases apart with
  | opened inner outer parted => exact .opened (o :: inner) outer parted
  | closed os retold => exact .closed (o :: os) retold

theorem top (apart : Diverge parent x y os r ps s) :
    (os = [] ∧ ps = [] ∧ ∃ c d, r = some c ∧ s = some d) ∨
      ∃ o os' p ps', os = o :: os' ∧ ps = p :: ps' ∧
        ∀ item, Diverge parent x y (o.take item :: os') r (p.take item :: ps') s := by
  cases apart with
  | @opened inner outer o p parted =>
    cases inner with
    | nil =>
      exact .inr ⟨o, _, p, _, rfl, rfl, fun item => .opened [] outer (parted.take item)⟩
    | cons q inner =>
      exact .inr ⟨q, _, q, _, rfl, rfl, fun item => .opened (q.take item :: inner) outer parted⟩
  | @closed os c d retold =>
    cases os with
    | nil => exact .inl ⟨rfl, rfl, c, d, rfl, rfl⟩
    | cons q os =>
      exact .inr ⟨q, _, q, _, rfl, rfl, fun item => .closed (q.take item :: os) retold⟩

end Diverge
end Trees

section Loading
variable {first second : ByteArray} {parent : OpenElement} {x y : String} {l m : Loader}

structure PendingTag.Alike (a b : PendingTag) : Prop where
  tag : a.tag = b.tag
  attributes : a.attributes = b.attributes
  dropped : a.dropped = b.dropped

structure PendingAttribute.Alike (first second : ByteArray) (a b : PendingAttribute) : Prop where
  name : a.name = b.name
  value : Option.Rel (fun s t : Span => s.raw first = t.raw second) a.value b.value

/-- The loaders read from two sources and have done the same, except for one text. -/
structure Loader.Alike (first second : ByteArray) (parent : OpenElement) (x y : String)
    (l m : Loader) : Prop where
  tag : Option.Rel PendingTag.Alike l.pendingTag m.pendingTag
  written : Option.Rel (PendingAttribute.Alike first second) l.pendingAttribute m.pendingAttribute
  skipped : l.skipped = m.skipped
  discarded : l.discarded = m.discarded
  built : Diverge parent x y l.opened l.root m.opened m.root

inductive Follows (first second : ByteArray) (parent : OpenElement) (x y : String) :
    Except Failure Loader → Except Failure Loader → Prop
  | ok {l m : Loader} (alike : l.Alike first second parent x y m) :
    Follows first second parent x y (.ok l) (.ok m)
  | error (failure : Failure) (outcome : Except Failure Loader) :
    Follows first second parent x y (.error failure) outcome

namespace Loader

private theorem addText_cons {parent : OpenElement} {outer : List OpenElement}
    (inside : l.opened = parent :: outer) (text : String) (offset : Nat) :
    l.addText text offset = .ok { l with opened := parent.take (.text text) :: outer } := by
  obtain ⟨_, root, tag, written, skipped, discarded⟩ := l
  obtain rfl := inside
  cases blank : isBlankText text <;> cases childless : parent.children.isEmpty <;>
    simp [addText, OpenElement.take, blank, childless]

theorem Alike.isSkipping (alike : l.Alike first second parent x y m) :
    l.isSkipping = m.isSkipping := by
  rw [Loader.isSkipping, Loader.isSkipping, alike.skipped]

private theorem Alike.add (alike : l.Alike first second parent x y m) (e : Element) :
    (l.add e).Alike first second parent x y (m.add e) := by
  obtain ⟨opened, root, _⟩ := l
  obtain ⟨opened', root', _⟩ := m
  obtain ⟨tag, written, skipped, discarded, built⟩ := alike
  obtain ⟨rfl, rfl, c, d, rfl, rfl⟩ | ⟨o, os, p, ps, rfl, rfl, take⟩ := built.top
  · exact ⟨tag, written, skipped, discarded, built⟩
  · exact ⟨tag, written, skipped, discarded, take (.child e)⟩

private theorem Alike.addText (alike : l.Alike first second parent x y m) (text : String)
    (i j : Nat) : Follows first second parent x y (l.addText text i) (m.addText text j) := by
  obtain ⟨opened, root, _⟩ := l
  obtain ⟨opened', root', _⟩ := m
  obtain ⟨tag, written, skipped, discarded, built⟩ := alike
  obtain ⟨rfl, rfl, c, d, rfl, rfl⟩ | ⟨o, os, p, ps, rfl, rfl, take⟩ := built.top
  · unfold Loader.addText
    split
    · exact .ok ⟨tag, written, skipped, discarded, built⟩
    · exact .error _ _
  · rw [addText_cons rfl, addText_cons rfl]
    exact .ok ⟨tag, written, skipped, discarded, take (.text text)⟩

/-- An end tag closes the same element in both, and it may be the one that differs. -/
theorem Alike.close {o p : OpenElement} {os ps : List OpenElement}
    (alike : l.Alike first second parent x y m) (top : l.opened = o :: os)
    (top' : m.opened = p :: ps) :
    o.tag = p.tag ∧ (Loader.add { l with opened := os } o.close).Alike first second parent x y
      (Loader.add { m with opened := ps } p.close) := by
  obtain ⟨opened, root, _⟩ := l
  obtain ⟨opened', root', _⟩ := m
  obtain ⟨tag, written, skipped, discarded, built⟩ := alike
  dsimp only at built top top'
  cases built with
  | opened inner outer parted =>
    cases inner with
    | nil =>
      obtain ⟨rfl, rfl⟩ := List.cons.inj top
      obtain ⟨rfl, rfl⟩ := List.cons.inj top'
      refine ⟨parted.tag, ?_⟩
      cases outer with
      | nil => exact ⟨tag, written, skipped, discarded, .closed [] parted.close⟩
      | cons around outer =>
        exact ⟨tag, written, skipped, discarded, .opened [] outer (.inside [] _ parted.close)⟩
    | cons q inner =>
      obtain ⟨rfl, rfl⟩ := List.cons.inj top
      obtain ⟨rfl, rfl⟩ := List.cons.inj top'
      refine ⟨rfl, Alike.add ?_ q.close⟩
      exact ⟨tag, written, skipped, discarded, .opened inner outer parted⟩
  | closed _ retold =>
    obtain ⟨rfl, rfl⟩ := List.cons.inj (top.symm.trans top')
    refine ⟨rfl, Alike.add ?_ o.close⟩
    exact ⟨tag, written, skipped, discarded, .closed os retold⟩

private theorem decodeSpan_of_raw {s t : Span} (same : s.raw first = t.raw second) {text : String}
    (decoded : decodeSpan first s = .ok text) : decodeSpan second t = .ok text := by
  rw [decodeSpan_eq_ok_iff] at decoded ⊢
  rwa [Span.decodes, Span.decoded, ← same]

private theorem Alike.onText (alike : l.Alike first second parent x y m) {s t : Span}
    (same : s.raw first = t.raw second) :
    Follows first second parent x y (l.onText first s) (m.onText second t) := by
  unfold Loader.onText
  rw [← alike.isSkipping, ← alike.built.isEmpty]
  split
  · exact .ok alike
  split
  · rw [show slice first s.start s.stop = slice second t.start t.stop from same]
    exact alike.addText _ _ _
  · cases decoded : decodeSpan first s with
    | error failure => exact .error _ _
    | ok text =>
      rw [decodeSpan_of_raw same decoded]
      exact alike.addText text _ _

private theorem Alike.onCdata (alike : l.Alike first second parent x y m) {s t : Span}
    (same : s.raw first = t.raw second) :
    Follows first second parent x y (l.onCdata first s) (m.onCdata second t) := by
  unfold Loader.onCdata
  rw [← alike.isSkipping, show slice first s.start s.stop = slice second t.start t.stop from same]
  split
  · exact .ok alike
  · exact alike.addText _ _ _

private theorem Alike.onStartName (alike : l.Alike first second parent x y m)
    (heavy : String → Bool)
    {s t : Span} (same : s.raw first = t.raw second) :
    Follows first second parent x y (l.onStartName heavy first s)
      (m.onStartName heavy second t) := by
  unfold Loader.onStartName
  dsimp only
  rw [← alike.isSkipping, ← alike.built.isEmpty, ← alike.built.isSome,
    show slice first s.start s.stop = slice second t.start t.stop from same]
  split
  · exact .error _ _
  · exact .ok ⟨.some ⟨rfl, rfl, rfl⟩, alike.written, alike.skipped, alike.discarded, alike.built⟩

private theorem Alike.onAttributeEnd (alike : l.Alike first second parent x y m) :
    Follows first second parent x y (l.onAttributeEnd first) (m.onAttributeEnd second) := by
  obtain ⟨opened, root, pendingTag, pendingAttribute, _⟩ := l
  obtain ⟨opened', root', pendingTag', pendingAttribute', _⟩ := m
  obtain ⟨tag, written, skipped, discarded, built⟩ := alike
  dsimp only at tag written
  cases written with
  | none => exact .ok ⟨tag, .none, skipped, discarded, built⟩
  | @some a b written =>
    obtain ⟨name, value⟩ := a
    obtain ⟨_, value'⟩ := b
    obtain ⟨rfl, value⟩ := written
    cases tag with
    | none => exact .ok ⟨.none, .none, skipped, discarded, built⟩
    | @some a b tag =>
      obtain ⟨tagged, offset, attributes, dropped⟩ := a
      obtain ⟨_, offset', _, _⟩ := b
      obtain ⟨rfl, rfl, rfl⟩ := tag
      unfold Loader.onAttributeEnd
      dsimp only
      split
      · exact .ok ⟨.some ⟨rfl, rfl, rfl⟩, .none, skipped, discarded, built⟩
      dsimp only at value
      cases value with
      | none => exact .ok ⟨.some ⟨rfl, rfl, rfl⟩, .none, skipped, discarded, built⟩
      | @some s _ same =>
        dsimp only
        cases decoded : decodeSpan first s with
        | error failure => exact .error _ _
        | ok text =>
          rw [decodeSpan_of_raw same decoded]
          exact .ok ⟨.some ⟨rfl, rfl, rfl⟩, .none, skipped, discarded, built⟩

private theorem Alike.onStartEnd (alike : l.Alike first second parent x y m) (empty : Bool) :
    Follows first second parent x y (l.onStartEnd empty) (m.onStartEnd empty) := by
  obtain ⟨opened, root, pendingTag, pendingAttribute, _⟩ := l
  obtain ⟨opened', root', pendingTag', pendingAttribute', _⟩ := m
  obtain ⟨tag, written, skipped, discarded, built⟩ := alike
  dsimp only at tag built skipped discarded
  subst skipped discarded
  cases tag with
  | none => exact .ok ⟨.none, written, rfl, rfl, built⟩
  | @some a b tag =>
    obtain ⟨name, offset, attributes, dropped⟩ := a
    obtain ⟨_, offset', _, _⟩ := b
    obtain ⟨rfl, rfl, rfl⟩ := tag
    unfold Loader.onStartEnd
    dsimp only
    rw [← built.length]
    split
    · exact .ok ⟨.none, written, rfl, rfl, built⟩
    split
    · exact .error _ _
    cases empty with
    | true =>
      refine .ok (Alike.add ?_ _)
      exact ⟨.none, written, rfl, rfl, built⟩
    | false => exact .ok ⟨.none, written, rfl, rfl, built.push _⟩

private theorem Alike.onEndName (alike : l.Alike first second parent x y m) {s t : Span}
    (same : s.raw first = t.raw second) :
    Follows first second parent x y (l.onEndName first s) (m.onEndName second t) := by
  have skipped := alike.skipped
  obtain ⟨opened, root, _, _, skipping, _⟩ := l
  obtain ⟨opened', root', _, _, _, _⟩ := m
  obtain rfl := skipped
  unfold Loader.onEndName
  dsimp only
  rw [show slice first s.start s.stop = slice second t.start t.stop from same]
  cases skipping with
  | cons expected outer =>
    dsimp only
    split
    · exact .ok ⟨alike.tag, alike.written, rfl, alike.discarded, alike.built⟩
    · exact .error _ _
  | nil =>
    cases opened with
    | nil => exact .error _ _
    | cons o os =>
      obtain ⟨p, ps, rfl⟩ := List.exists_cons_of_length_eq_add_one alike.built.length.symm
      obtain ⟨tag, closed⟩ := alike.close rfl rfl
      dsimp only
      rw [← tag]
      split
      · exact .ok closed
      · exact .error _ _

theorem Alike.step (alike : l.Alike first second parent x y m) (heavy : String → Bool)
    {t u : Token} (report : Token.Alike first second t u) :
    Follows first second parent x y (step heavy first l t) (step heavy second m u) := by
  cases report with
  | text same => exact alike.onText same
  | cdata same => exact alike.onCdata same
  | comment | instruction | endOfSource => exact .ok alike
  | startName same => exact alike.onStartName heavy same
  | attributeName same =>
    exact .ok ⟨alike.tag, .some ⟨same, .none⟩, alike.skipped, alike.discarded, alike.built⟩
  | @attributeValue s t same =>
    have written : Option.Rel (PendingAttribute.Alike first second)
        (l.pendingAttribute.map ({ · with value := some s }))
        (m.pendingAttribute.map ({ · with value := some t })) := by
      have before := alike.written
      generalize l.pendingAttribute = a at before ⊢
      generalize m.pendingAttribute = b at before ⊢
      cases before with
      | none => exact .none
      | some before => exact .some ⟨before.name, .some same⟩
    exact .ok ⟨alike.tag, written, alike.skipped, alike.discarded, alike.built⟩
  | attributeEnd => exact alike.onAttributeEnd
  | startEnd | emptyEnd => exact alike.onStartEnd _
  | endName same => exact alike.onEndName same
  | fault => exact .error _ _

theorem Alike.run (alike : l.Alike first second parent x y m) (heavy : String → Bool)
    {ts us : List Token} (reports : List.Forall₂ (Token.Alike first second) ts us) :
    Follows first second parent x y (ts.foldlM (Loader.step heavy first) l)
      (us.foldlM (Loader.step heavy second) m) := by
  induction reports generalizing l m with
  | nil => exact .ok alike
  | @cons t u ts us report _ ih =>
    rw [List.foldlM_cons, List.foldlM_cons]
    have now := alike.step heavy report
    generalize Loader.step heavy first l t = outcome, Loader.step heavy second m u = outcome' at now
    cases now with
    | ok alike => exact ih alike
    | error failure => exact .error failure _

private theorem Alike.finish (alike : l.Alike first second parent x y m) {p : Project}
    (finish : l.finish = .ok p) :
    ∃ q, m.finish = .ok q ∧ q.discarded = p.discarded ∧ Retold parent x y p.root q.root := by
  obtain ⟨opened, root, _, _, skipped, d⟩ := l
  obtain ⟨opened', root', _, _, _, _⟩ := m
  obtain ⟨_, _, rfl, rfl, built⟩ := alike
  cases skipped with
  | cons => contradiction
  | nil =>
    cases built with
    | opened inner => cases inner <;> contradiction
    | @closed _ c e retold =>
      cases opened with
      | cons => contradiction
      | nil =>
        obtain rfl := Except.ok.inj finish
        exact ⟨⟨e, d⟩, rfl, rfl, retold⟩

end Loader

theorem Loads.alike {heavy : String → Bool} {ts us : List Token} {p : Project}
    (loads : Loads heavy first ts l p) (alike : l.Alike first second parent x y m)
    (reports : List.Forall₂ (Token.Alike first second) ts us) :
    ∃ q, Loads heavy second us m q ∧ q.discarded = p.discarded ∧
      Retold parent x y p.root q.root := by
  obtain ⟨last, run, finish⟩ := loads
  have follows := alike.run heavy reports
  rw [run] at follows
  generalize run' : us.foldlM (Loader.step heavy second) m = outcome at follows
  cases follows with
  | ok alike =>
    obtain ⟨q, finish', same⟩ := alike.finish finish
    exact ⟨q, ⟨_, run', finish'⟩, same⟩

end Loading
end Variability.Markup
