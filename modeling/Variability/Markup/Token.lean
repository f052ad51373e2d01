/-! What a lexer reports of a markup source, in source order. Every report
names its place by byte offsets, and nothing is decoded yet. -/
namespace Variability.Markup

/-- The bytes from `start` up to, but not including, `stop`. -/
structure Span where
  start : Nat
  stop : Nat
  deriving DecidableEq, Repr

inductive Quote where
  | single
  | double
  deriving DecidableEq, Repr

def Quote.char : Quote → Char
  | .single => '\''
  | .double => '"'

inductive LexicalFault where
  | endInTag
  | endInComment
  | endInCdata
  | endInInstruction
  | badTagName
  | namelessEndTag
  | junkInEndTag
  | badAttribute
  deriving DecidableEq, Repr

inductive Token where
  | text (span : Span)
  | cdata (span : Span)
  | comment (span : Span)
  | instruction (span : Span)
  /-- The name of a start tag; its attributes and its end follow. -/
  | startName (span : Span)
  | attributeName (span : Span)
  /-- The value between the quotes, reported only when it is not empty. -/
  | attributeValue (span : Span)
  /-- The closing quote of an attribute. -/
  | attributeEnd (quote : Quote) (offset : Nat)
  /-- The `>` of a start tag. -/
  | startEnd (offset : Nat)
  /-- The `>` of an empty-element tag. -/
  | emptyEnd (offset : Nat)
  /-- The name of an end tag. -/
  | endName (span : Span)
  | fault (fault : LexicalFault) (offset : Nat)
  | endOfSource
  deriving DecidableEq, Repr

def Token.isFault : Token → Bool
  | .fault .. => true
  | _ => false

end Variability.Markup
