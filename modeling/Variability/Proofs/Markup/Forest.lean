import Variability.Markup.Loader
import Variability.Proofs.Markup.Grammar
import Variability.Proofs.Markup.Phrase

/-! The reports on a source as a forest. Phrases in which every element that is
opened is closed again are those of a forest, and whatever is to be said about
nesting is said about the forest, by recursion. Elements that are heavy are left
out of what a forest stands for, with everything below them. -/
namespace Variability.Markup
open Text

/-- A report that stands by itself, or an element with what is in it. -/
inductive Node where
  | leaf (leaf : Leaf)
  | empty (parts : TagParts) (stop : Nat)
  | element (parts : TagParts) (stop : Nat) (content : List Node) (close : Span)

mutual
def Node.phrases : Node → List Phrase
  | .leaf l => [.leaf l]
  | .empty parts stop => [.empty parts stop]
  | .element parts stop content close =>
    .start parts stop :: (Forest.phrases content ++ [.close close])

def Forest.phrases : List Node → List Phrase
  | [] => []
  | n :: rest => n.phrases ++ Forest.phrases rest
end

def Node.tokens (n : Node) : List Token := Phrase.allTokens n.phrases

def Forest.tokens (nodes : List Node) : List Token := Phrase.allTokens (Forest.phrases nodes)

namespace Node

@[simp] theorem tokens_leaf (l : Leaf) : (leaf l).tokens = [l.token] := rfl

@[simp] theorem tokens_empty (parts : TagParts) (stop : Nat) :
    (empty parts stop).tokens = (Phrase.empty parts stop).tokens := by
  rw [tokens, phrases, Phrase.allTokens_cons, Phrase.allTokens_nil, List.append_nil]

theorem tokens_element (parts : TagParts) (stop : Nat) (content : List Node) (close : Span) :
    (element parts stop content close).tokens =
      (Phrase.start parts stop).tokens ++ Forest.tokens content ++ [.endName close] := by
  rw [tokens, phrases, Phrase.allTokens_cons, Phrase.allTokens_append, List.append_assoc]
  rfl

end Node

namespace Forest

@[simp] theorem tokens_nil : tokens [] = [] := rfl

@[simp] theorem tokens_cons (n : Node) (rest : List Node) :
    tokens (n :: rest) = n.tokens ++ tokens rest := by
  rw [tokens, phrases, Phrase.allTokens_append]
  rfl

end Forest

def Phrase.nest (opened : Nat) : Phrase → Option Nat
  | .leaf _ | .empty .. => some opened
  | .start .. => some (opened + 1)
  | .close _ => if opened = 0 then none else some (opened - 1)

/-- A forest, and after it the rest of `n` elements that are open: each of them
is closed, and then the one around it goes on. -/
inductive Closes : Nat → List Phrase → Prop
  | done (nodes : List Node) : Closes 0 (Forest.phrases nodes)
  | close (nodes : List Node) (name : Span) {n : Nat} {rest : List Phrase} (outer : Closes n rest) :
      Closes (n + 1) (Forest.phrases nodes ++ .close name :: rest)

private theorem Closes.cons {n : Nat} {phrases : List Phrase} (h : Closes n phrases) (node : Node) :
    Closes n (node.phrases ++ phrases) := by
  cases h with
  | done nodes => exact .done (node :: nodes)
  | close nodes name outer =>
    rw [← List.append_assoc]
    exact .close (node :: nodes) name outer

private theorem closes_of_nest (phrases : List Phrase) (n : Nat)
    (balanced : phrases.foldlM Phrase.nest n = some 0) : Closes n phrases := by
  induction phrases generalizing n with
  | nil =>
    obtain rfl : n = 0 := Option.some.inj balanced
    exact .done []
  | cons p phrases ih =>
    rw [List.foldlM_cons] at balanced
    obtain ⟨next, nest, rest⟩ := Option.bind_eq_some_iff.mp balanced
    have later := ih next rest
    cases p with
    | leaf l =>
      obtain rfl : n = next := Option.some.inj nest
      exact later.cons (.leaf l)
    | empty parts stop =>
      obtain rfl : n = next := Option.some.inj nest
      exact later.cons (.empty parts stop)
    | start parts stop =>
      -- what follows closes this element first, so it is the content of a node
      obtain rfl : n + 1 = next := Option.some.inj nest
      cases later with
      | close content name outer =>
        have := outer.cons (.element parts stop content name)
        simpa only [Node.phrases, List.cons_append, List.append_assoc, List.nil_append] using this
    | close name =>
      cases n with
      | zero => contradiction
      | succ n =>
        obtain rfl : n = next := Option.some.inj nest
        exact .close [] name later

theorem exists_forest {phrases : List Phrase} (balanced : phrases.foldlM Phrase.nest 0 = some 0) :
    ∃ nodes, phrases = Forest.phrases nodes := by
  cases closes_of_nest phrases 0 balanced with
  | done nodes => exact ⟨nodes, rfl⟩

section Reading
variable (heavy : String → Bool) (source : ByteArray)

def Span.raw (span : Span) : String := slice source span.start span.stop

def Span.decodes (span : Span) : Bool := (decode (span.raw source)).isOk

def Span.decoded (span : Span) : String := (decode (span.raw source)).toOption.getD ""

def AttributeParts.decodes (a : AttributeParts) : Bool := a.value.all (·.decodes source)

def AttributeParts.pair (a : AttributeParts) : String × String :=
  (a.name.raw source, (a.value.map (·.decoded source)).getD "")

namespace TagParts

def tag (parts : TagParts) : String := parts.name.raw source

def decodes (parts : TagParts) : Bool := parts.attributes.all (·.decodes source)

def values (parts : TagParts) : List (String × String) := parts.attributes.map (·.pair source)

end TagParts

namespace Leaf

def decodes : Leaf → Bool
  | .text span => span.decodes source
  | .cdata _ | .comment _ | .instruction _ => true

def isBlank : Leaf → Bool
  | .text span | .cdata span => isBlankText (span.raw source)
  | .comment _ | .instruction _ => true

def items : Leaf → List Item
  | .text span => [.text (span.decoded source)]
  | .cdata span => [.text (span.raw source)]
  | .comment _ | .instruction _ => []

end Leaf

mutual
def Node.matched : Node → Bool
  | .leaf _ | .empty .. => true
  | .element parts _ content close =>
    parts.tag source == close.raw source && Forest.matched content

def Forest.matched : List Node → Bool
  | [] => true
  | n :: rest => n.matched && Forest.matched rest
end

mutual
def Node.decodes : Node → Bool
  | .leaf l => l.decodes source
  | .empty parts _ => heavy (parts.tag source) || parts.decodes source
  | .element parts _ content _ =>
    heavy (parts.tag source) || (parts.decodes source && Forest.decodes content)

def Forest.decodes : List Node → Bool
  | [] => true
  | n :: rest => n.decodes && Forest.decodes rest
end

mutual
def Node.depth : Node → Nat
  | .leaf _ => 0
  | .empty parts _ => if heavy (parts.tag source) then 0 else 1
  | .element parts _ content _ => if heavy (parts.tag source) then 0 else Forest.depth content + 1

def Forest.depth : List Node → Nat
  | [] => 0
  | n :: rest => max n.depth (Forest.depth rest)
end

mutual
def Node.items : Node → List Item
  | .leaf l => l.items source
  | .empty parts _ =>
    if heavy (parts.tag source) then []
    else [.child (Item.assemble (parts.tag source) (parts.values source) [])]
  | .element parts _ content _ =>
    if heavy (parts.tag source) then []
    else [.child (Item.assemble (parts.tag source) (parts.values source) (Forest.items content))]

def Forest.items : List Node → List Item
  | [] => []
  | n :: rest => n.items ++ Forest.items rest
end

mutual
/-- The number of heavy elements that no other one holds. -/
def Node.discarded : Node → Nat
  | .leaf _ => 0
  | .empty parts _ => if heavy (parts.tag source) then 1 else 0
  | .element parts _ content _ => if heavy (parts.tag source) then 1 else Forest.discarded content

def Forest.discarded : List Node → Nat
  | [] => 0
  | n :: rest => n.discarded + Forest.discarded rest
end

namespace Node

def parts? : Node → Option TagParts
  | .leaf _ => none
  | .empty parts _ | .element parts _ _ _ => some parts

def content : Node → List Node
  | .leaf _ | .empty .. => []
  | .element _ _ content _ => content

def isElement (n : Node) : Bool := n.parts?.isSome

def isKept (n : Node) : Bool := n.parts?.any fun parts => !heavy (parts.tag source)

def isBlank : Node → Bool
  | .leaf l => l.isBlank source
  | .empty .. | .element .. => true

section Tagged
variable {n : Node} {parts : TagParts} (tagged : n.parts? = some parts)
include tagged

theorem items_of_tagged : n.items heavy source =
    if heavy (parts.tag source) then []
    else [.child (Item.assemble (parts.tag source) (parts.values source)
      (Forest.items heavy source n.content))] := by
  cases n with
  | leaf l => contradiction
  | empty own stop =>
    obtain rfl : own = parts := Option.some.inj tagged
    rw [items, content, Forest.items]
  | element own stop inside close =>
    obtain rfl : own = parts := Option.some.inj tagged
    rw [items, content]

theorem discarded_of_tagged : n.discarded heavy source =
    if heavy (parts.tag source) then 1 else Forest.discarded heavy source n.content := by
  cases n with
  | leaf l => contradiction
  | empty own stop =>
    obtain rfl : own = parts := Option.some.inj tagged
    rw [discarded, content, Forest.discarded]
  | element own stop inside close =>
    obtain rfl : own = parts := Option.some.inj tagged
    rw [discarded, content]

end Tagged
end Node

/-- The top level of a source that loads: one element is kept, ahead of it all
elements are heavy, after it there is none, and other text than blanks is inside
of elements. -/
structure Accepted (before : List Node) (root : Node) (after : List Node) : Prop where
  matched : Forest.matched source (before ++ root :: after) = true
  heavyBefore : ∀ n ∈ before, n.isKept heavy source = false
  keptRoot : root.isKept heavy source = true
  noneAfter : ∀ n ∈ after, n.isElement = false
  blankOutside : ∀ n ∈ before ++ after, n.isBlank source = true
  decodes : root.decodes heavy source = true
  shallow : root.depth heavy source ≤ 256

end Reading
end Variability.Markup
