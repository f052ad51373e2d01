import Variability.Markup.Lexer
import Variability.Markup.Reference
import Variability.Markup.Fault
import Variability.Project
import Variability.Text.Utf8

/-! Loading a project from markup. The tree is put together from the lexer's
reports, one after another. Elements that hold pictures and sounds are heavy:
below them only the nesting of tags is followed, and nothing is kept. -/
namespace Variability.Markup
open Text

/-- Pictures, sounds and what holds them. -/
def heavyTags : List String := ["thumbnail", "pentrails", "media", "costume", "sound"]

def isHeavy (tag : String) : Bool := heavyTags.contains tag

structure OpenElement where
  tag : String
  attributes : List (String × String)
  text : String := ""
  /-- The children so far, last one first. -/
  children : List Element := []

def OpenElement.close (e : OpenElement) : Element :=
  ⟨e.tag, e.attributes, e.text, e.children.reverse⟩

structure PendingTag where
  tag : String
  /-- Where its `<` is. -/
  offset : Nat
  /-- The attributes so far, last one first. -/
  attributes : List (String × String) := []
  /-- It belongs to a heavy subtree. -/
  dropped : Bool

structure PendingAttribute where
  name : String
  value : Option Span := none

structure Failure where
  fault : Fault
  offset : Nat
  deriving DecidableEq, Repr

structure Loader where
  /-- Innermost first. -/
  opened : List OpenElement := []
  root : Option Element := none
  pendingTag : Option PendingTag := none
  pendingAttribute : Option PendingAttribute := none
  /-- The open tags of a heavy subtree, innermost first. -/
  skipped : List String := []
  discarded : Nat := 0

namespace Loader

def isSkipping (l : Loader) : Bool := !l.skipped.isEmpty

/-- Hands a finished element to its parent; without one it is the root. -/
def add (l : Loader) (e : Element) : Loader :=
  match l.opened with
  | parent :: outer => { l with opened := { parent with children := e :: parent.children } :: outer }
  | [] => { l with root := some (l.root.getD e) }

/-- Only text that is not blank counts, and only ahead of the first child. -/
def addText (l : Loader) (text : String) (offset : Nat) : Except Failure Loader :=
  if isBlankText text then .ok l
  else
    match l.opened with
    | parent :: outer =>
      if parent.children.isEmpty then
        .ok { l with opened := { parent with text := parent.text ++ text } :: outer }
      else .ok l
    | [] => .error ⟨.textOutsideRoot, offset⟩

def decodeSpan (source : ByteArray) (span : Span) : Except Failure String :=
  match decode (slice source span.start span.stop) with
  | .ok text => .ok text
  | .error bad => .error ⟨.unknownReference bad.text, span.start + bad.offset⟩

def onText (l : Loader) (source : ByteArray) (span : Span) : Except Failure Loader :=
  if l.isSkipping then .ok l
  else if l.opened.isEmpty then l.addText (slice source span.start span.stop) span.start
  else do l.addText (← decodeSpan source span) span.start

def onCdata (l : Loader) (source : ByteArray) (span : Span) : Except Failure Loader :=
  if l.isSkipping then .ok l
  else l.addText (slice source span.start span.stop) span.start

def onStartName (heavy : String → Bool) (l : Loader) (source : ByteArray) (span : Span) :
    Except Failure Loader :=
  let tag := slice source span.start span.stop
  let offset := span.start - 1
  if l.root.isSome && l.opened.isEmpty && !l.isSkipping then .error ⟨.secondRoot tag, offset⟩
  else
    .ok { l with pendingTag := some { tag, offset, dropped := l.isSkipping || heavy tag } }

def onAttributeEnd (l : Loader) (source : ByteArray) : Except Failure Loader :=
  match l.pendingAttribute with
  | none => .ok l
  | some pending =>
    let l := { l with pendingAttribute := none }
    match l.pendingTag with
    | none => .ok l
    | some tag =>
      if tag.dropped then .ok l
      else do
        let value ←
          match pending.value with
          | some span => decodeSpan source span
          | none => pure ""
        return { l with
          pendingTag := some { tag with attributes := (pending.name, value) :: tag.attributes } }

/-- The start tag is complete; an empty-element tag is the whole element. -/
def onStartEnd (l : Loader) (empty : Bool) : Except Failure Loader :=
  match l.pendingTag with
  | none => .ok l
  | some tag =>
    let l := { l with pendingTag := none }
    if tag.dropped then
      .ok { l with
        discarded := if l.isSkipping then l.discarded else l.discarded + 1
        skipped := if empty then l.skipped else tag.tag :: l.skipped }
    else if maxDepth ≤ l.opened.length then .error ⟨.tooDeep tag.tag, tag.offset⟩
    else
      let element : OpenElement := { tag := tag.tag, attributes := tag.attributes.reverse }
      .ok (if empty then l.add element.close else { l with opened := element :: l.opened })

def onEndName (l : Loader) (source : ByteArray) (span : Span) : Except Failure Loader :=
  let tag := slice source span.start span.stop
  let offset := span.start - 2
  match l.skipped with
  | expected :: outer =>
    if expected == tag then .ok { l with skipped := outer }
    else .error ⟨.mismatchedEndTag expected tag, offset⟩
  | [] =>
    match l.opened with
    | element :: outer =>
      if element.tag == tag then .ok ({ l with opened := outer }.add element.close)
      else .error ⟨.mismatchedEndTag element.tag tag, offset⟩
    | [] => .error ⟨.strayEndTag tag, offset⟩

def step (heavy : String → Bool) (source : ByteArray) (l : Loader) :
    Token → Except Failure Loader
  | .text span => l.onText source span
  | .cdata span => l.onCdata source span
  | .comment _ | .instruction _ | .endOfSource => .ok l
  | .startName span => onStartName heavy l source span
  | .attributeName span =>
    .ok { l with pendingAttribute := some { name := slice source span.start span.stop } }
  | .attributeValue span =>
    .ok { l with pendingAttribute := l.pendingAttribute.map ({ · with value := some span }) }
  | .attributeEnd .. => l.onAttributeEnd source
  | .startEnd _ => l.onStartEnd false
  | .emptyEnd _ => l.onStartEnd true
  | .endName span => l.onEndName source span
  | .fault fault offset => .error ⟨.lexical fault, offset⟩

/-- Everything must be closed, and there must have been a root. -/
def finish (l : Loader) : Except Fault Project :=
  match l.skipped, l.opened, l.root with
  | tag :: _, _, _ => .error (.unclosed tag)
  | [], element :: _, _ => .error (.unclosed element.tag)
  | [], [], some root => .ok ⟨root, l.discarded⟩
  | [], [], none => .error .noRoot

end Loader

/-- Loads a source, dropping the subtrees whose tag is heavy. -/
def load (heavy : String → Bool) (source : String) : Except LoadError Project :=
  let bytes := bytes source
  let located (f : Failure) : LoadError := ⟨f.fault, Position.ofOffset bytes f.offset⟩
  match (tokens bytes).foldlM (Loader.step heavy source.toByteArray) {} with
  | .error failure => .error (located failure)
  | .ok loader => loader.finish.mapError fun fault => located ⟨fault, bytes.length⟩

/-- One byte order mark may stand ahead of the source and is no part of it. -/
def dropMark (source : String) : String :=
  match source.toList with
  | c :: rest => if c.toNat == 0xFEFF then String.ofList rest else source
  | [] => source

def loadText (source : String) : Except LoadError Project :=
  load isHeavy (dropMark source)

def loadBytes (source : ByteArray) : Except LoadError Project :=
  match String.fromUTF8? source with
  | some text => loadText text
  | none =>
    let bytes := source.data.toList
    .error ⟨.notUtf8, Position.ofOffset bytes (validUpTo 0 bytes)⟩

end Variability.Markup
