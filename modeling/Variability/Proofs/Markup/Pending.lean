import Variability.Proofs.Markup.Acceptance

/-! What the loader remembers in the middle of a start tag. Reports without a fault
come in whole phrases, and at each of them the loader holds exactly the part of a
phrase that has been reported: no attribute comes without a tag to belong to, and a
tag that ends has all its attributes and no others. -/
namespace Variability.Markup
open Text

/-- The loader holds the start tag as far as `parts` tells it. A tag that is dropped
holds no attributes. -/
structure TagParts.Held (heavy : String → Bool) (source : ByteArray) (l : Loader)
    (parts : TagParts) (pending : PendingTag) : Prop where
  holds : l.pendingTag = some pending
  tag : pending.tag = parts.tag source
  dropped : pending.dropped = (l.isSkipping || heavy (parts.tag source))
  attributes : pending.attributes.reverse = if pending.dropped then [] else parts.values source

section Drafts
variable {heavy : String → Bool} {source : ByteArray} {l m : Loader}

def Draft.Held (heavy : String → Bool) (source : ByteArray) (l : Loader) : Draft → Prop
  | .nothing => l.Calm
  | .tag parts => (∃ pending, parts.Held heavy source l pending) ∧ l.pendingAttribute = none
  | .named parts name =>
    (∃ pending, parts.Held heavy source l pending) ∧
      l.pendingAttribute = some ⟨name.raw source, none⟩
  | .valued parts name value =>
    (∃ pending, parts.Held heavy source l pending) ∧
      l.pendingAttribute = some ⟨name.raw source, some value⟩

private theorem TagParts.Held.isSome {parts : TagParts} {pending : PendingTag}
    (held : parts.Held heavy source l pending) : l.pendingTag.isSome = true := by
  rw [held.holds]
  rfl

end Drafts

private theorem TagParts.Held.onStartEnd {heavy : String → Bool} {source : ByteArray} {l m : Loader}
    {parts : TagParts} {pending : PendingTag} (held : parts.Held heavy source l pending)
    (kept : pending.dropped = false) {empty : Bool} (ended : l.onStartEnd empty = .ok m) :
    m = if empty then { l with pendingTag := none }.add (parts.fresh source).close
      else { l with pendingTag := none, opened := parts.fresh source :: l.opened } := by
  have element : parts.fresh source =
      { tag := pending.tag, attributes := pending.attributes.reverse } := by
    rw [held.attributes, kept, held.tag]
    rfl
  unfold Loader.onStartEnd at ended
  simp only [held.holds, kept] at ended
  split at ended
  · contradiction
  split at ended
  · contradiction
  · rw [element]
    exact (Except.ok.inj ended).symm

end Variability.Markup
