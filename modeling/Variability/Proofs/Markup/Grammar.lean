import Variability.Markup.Loader

/-! The documents that load, as data. A document is written down by `render`;
what it stands for, a tree and a number of dropped subtrees, is read off the
data. Character data that is kept is a text spelled out character by character,
with references where the writer likes or must; below a heavy tag it may be
anything that does not end it. Space and blanks are kept together with what
stands after them. -/
namespace Variability.Markup
open Text

def spaceChars : List Char := [' ', '\t', '\n', '\r']

abbrev Spaces := { text : String // ∀ c ∈ text.toList, c ∈ spaceChars }

def Spaces.none : Spaces := ⟨"", by simp⟩

abbrev Blank := { text : String // isBlankText text = true }

def Blank.none : Blank := ⟨"", rfl⟩

/-- A body that never holds the mark that would end it. -/
abbrev Without (mark : String) := { body : String // ¬ mark.toList <:+: body.toList }

def startsName (c : Char) : Bool :=
  c.isAlpha || c == '_' || c == ':' || 128 ≤ c.toNat

structure TagName where
  text : String
  starts : text.toList.head?.any startsName = true
  free : ∀ c ∈ text.toList, c ∉ '/' :: '>' :: spaceChars

structure AttributeName where
  text : String
  starts : text.toList.head?.any
    (fun c => c ∉ '=' :: '"' :: '\'' :: '<' :: '>' :: '/' :: spaceChars) = true
  free : ∀ c ∈ text.toList.tail, c ∉ '=' :: '/' :: '>' :: spaceChars

def predefined : List (String × Char) :=
  [("lt", '<'), ("gt", '>'), ("amp", '&'), ("quot", '"'), ("apos", '\'')]

def IsDigit (base v : Nat) (c : Char) : Prop :=
  v < base ∧ (c = v.digitChar ∨ c = v.digitChar.toUpper)

/-- Digits of a number, the most significant one first; zeros may lead. -/
inductive Numeral (base : Nat) : List Char → Nat → Prop
  | digit {v : Nat} {c : Char} (last : IsDigit base v c) : Numeral base [c] v
  | shift {ds : List Char} {n v : Nat} {c : Char} (front : Numeral base ds n)
      (last : IsDigit base v c) : Numeral base (ds ++ [c]) (base * n + v)

/-- How a character may be written ahead of the delimiter `stop`. -/
inductive Spells (stop : Char) (c : Char) : List Char → Prop
  | plain (free : c ≠ '&' ∧ c ≠ stop) : Spells stop c [c]
  | named {name : String} (known : (name, c) ∈ predefined) :
      Spells stop c ('&' :: name.toList ++ [';'])
  | decimal {ds : List Char} (number : Numeral 10 ds c.toNat) :
      Spells stop c ('&' :: '#' :: ds ++ [';'])
  | hexadecimal {x : Char} {ds : List Char} (marked : x = 'x' ∨ x = 'X')
      (number : Numeral 16 ds c.toNat) : Spells stop c ('&' :: '#' :: x :: ds ++ [';'])

structure Spelled (stop : Char) where
  char : Char
  written : List Char
  spells : Spells stop char written

/-- Whether what is written becomes part of the tree. -/
inductive Mode where
  | kept
  | dropped

def Run (stop : Char) : Mode → Type
  | .kept => List (Spelled stop)
  | .dropped => { raw : String // stop ∉ raw.toList }

namespace Run
variable {stop : Char}

def raw : {mode : Mode} → Run stop mode → String
  | .kept, run => String.ofList (List.flatMap Spelled.written run)
  | .dropped, run => run.val

def text : {mode : Mode} → Run stop mode → String
  | .kept, run => String.ofList (List.map Spelled.char run)
  | .dropped, _ => ""

end Run

structure Attribute (mode : Mode) where
  name : AttributeName
  beforeEquals : Spaces := .none
  afterEquals : Spaces := .none
  quote : Quote
  value : Run quote.char mode

def Attribute.render {mode : Mode} (a : Attribute mode) : String :=
  let quote := a.quote.char.toString
  a.name.text ++ a.beforeEquals ++ "=" ++ a.afterEquals ++ quote ++ a.value.raw ++ quote

/-- A start tag without the `<` ahead of it and without its end. The tag of an
element that is kept is not heavy. -/
structure StartTag (mode : Mode) where
  name : TagName
  light : mode = .kept → isHeavy name.text = false
  attributes : List (Spaces × Attribute mode) := []
  -- without space the first one would be part of the name
  separated : ∀ first ∈ attributes.head?, first.1.val ≠ "" := by simp
  gap : Spaces := .none

namespace StartTag
variable {mode : Mode}

def renderAttributes : List (Spaces × Attribute mode) → String
  | [] => ""
  | (gap, a) :: rest => gap ++ a.render ++ renderAttributes rest

def render (start : StartTag mode) : String :=
  start.name.text ++ renderAttributes start.attributes ++ start.gap

def values (start : StartTag mode) : List (String × String) :=
  start.attributes.map fun (_, a) => (a.name.text, a.value.text)

end StartTag

/-- Markup that is no part of the tree, without the `<` ahead of it. -/
inductive Misc where
  | comment (body : Without "-->")
  | instruction (body : Without "?>")

def Misc.render : Misc → String
  | .comment body => "!--" ++ body ++ "-->"
  | .instruction body => "?" ++ body ++ "?>"

mutual
/-- Markup inside an element, without the `<` ahead of it. Besides elements of
the same mode there may be foreign ones. -/
inductive Piece (mode : Mode) (Foreign : Type) where
  | misc (misc : Misc)
  | cdata (body : Without "]]>")
  | element (start : StartTag mode) (inside : Inside mode Foreign)
  | foreign (element : Foreign)

/-- What follows the start tag of an element, from its end on. -/
inductive Inside (mode : Mode) (Foreign : Type) where
  | empty
  | content (content : Content mode Foreign) (gap : Spaces)

inductive Content (mode : Mode) (Foreign : Type) where
  | last (run : Run '<' mode)
  | more (run : Run '<' mode) (piece : Piece mode Foreign) (rest : Content mode Foreign)
end

section Render
variable {mode : Mode} {Foreign : Type} (foreign : Foreign → String)

mutual
def Piece.render : Piece mode Foreign → String
  | .misc misc => misc.render
  | .cdata body => "![CDATA[" ++ body ++ "]]>"
  | .element start inside => start.render ++ inside.render start.name.text
  | .foreign element => foreign element

def Inside.render (name : String) : Inside mode Foreign → String
  | .empty => "/>"
  | .content content gap => ">" ++ content.render ++ "</" ++ name ++ gap ++ ">"

def Content.render : Content mode Foreign → String
  | .last run => run.raw
  | .more run piece rest => run.raw ++ "<" ++ piece.render ++ rest.render
end

end Render

structure Heavy where
  start : StartTag .dropped
  heavy : isHeavy start.name.text = true
  inside : Inside .dropped Empty

def Heavy.render (h : Heavy) : String :=
  h.start.render ++ h.inside.render Empty.elim h.start.name.text

inductive Item where
  | text (text : String)
  | child (element : Element)

namespace Item

def child? : Item → Option Element
  | .text _ => none
  | .child element => some element

/-- The text ahead of the first child, of which blank parts do not count. -/
def leadingText : List Item → String
  | [] => ""
  | .text part :: rest => (if isBlankText part then "" else part) ++ leadingText rest
  | .child _ :: _ => ""

def assemble (tag : String) (attributes : List (String × String)) (items : List Item) : Element :=
  ⟨tag, attributes, leadingText items, items.filterMap child?⟩

end Item

mutual
def Piece.items : Piece .kept Heavy → List Item
  | .misc _ => []
  | .cdata body => [.text body]
  | .element start inside => [.child (Item.assemble start.name.text start.values inside.items)]
  | .foreign _ => []

def Inside.items : Inside .kept Heavy → List Item
  | .empty => []
  | .content content _ => content.items

def Content.items : Content .kept Heavy → List Item
  | .last run => [.text run.text]
  | .more run piece rest => .text run.text :: piece.items ++ rest.items
end

mutual
def Piece.discarded : Piece .kept Heavy → Nat
  | .misc _ | .cdata _ => 0
  | .element _ inside => inside.discarded
  | .foreign _ => 1

def Inside.discarded : Inside .kept Heavy → Nat
  | .empty => 0
  | .content content _ => content.discarded

def Content.discarded : Content .kept Heavy → Nat
  | .last _ => 0
  | .more _ piece rest => piece.discarded + rest.discarded
end

mutual
def Piece.depth : Piece .kept Heavy → Nat
  | .element _ inside => inside.depth + 1
  | .misc _ | .cdata _ | .foreign _ => 0

def Inside.depth : Inside .kept Heavy → Nat
  | .empty => 0
  | .content content _ => content.depth

def Content.depth : Content .kept Heavy → Nat
  | .last _ => 0
  | .more _ piece rest => max piece.depth rest.depth
end

structure Document where
  prolog : List (Blank × Misc) := []
  lead : Blank := .none
  start : StartTag .kept
  inside : Inside .kept Heavy
  epilog : List (Blank × Misc) := []
  trail : Blank := .none
  bounded : inside.depth + 1 ≤ 256

namespace Document

def renderMiscs : List (Blank × Misc) → String
  | [] => ""
  | (blank, misc) :: rest => blank ++ "<" ++ misc.render ++ renderMiscs rest

def render (d : Document) : String :=
  renderMiscs d.prolog ++ d.lead ++ "<" ++ d.start.render ++
    d.inside.render Heavy.render d.start.name.text ++ renderMiscs d.epilog ++ d.trail

def project (d : Document) : Project :=
  ⟨Item.assemble d.start.name.text d.start.values d.inside.items, d.inside.discarded⟩

end Document
end Variability.Markup
