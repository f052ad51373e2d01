import Variability.Markup.Token
import Variability.Text.Position

/-! Why a source does not load. -/
namespace Variability.Markup

inductive Fault where
  | notUtf8
  | lexical (fault : LexicalFault)
  | strayEndTag (tag : String)
  | mismatchedEndTag (expected found : String)
  | unclosed (tag : String)
  | noRoot
  | tooDeep (tag : String)
  | secondRoot (tag : String)
  | textOutsideRoot
  | unknownReference (text : String)
  deriving DecidableEq, Repr

/-- The deepest element that is accepted, the root being at depth one. -/
def maxDepth : Nat := 256

def LexicalFault.message : LexicalFault → String
  | .endInTag => "unexpected end of input inside a tag"
  | .endInComment => "unexpected end of input inside a comment"
  | .endInCdata => "unexpected end of input inside a CDATA section"
  | .endInInstruction => "unexpected end of input inside a processing instruction"
  | .badTagName => "invalid tag name"
  | .namelessEndTag => "end tag without a name"
  | .junkInEndTag => "end tag without a matching start tag"
  | .badAttribute => "malformed attribute"

namespace Fault

def message : Fault → String
  | .notUtf8 => "input is not valid UTF-8"
  | .lexical fault => fault.message
  | .strayEndTag _ => "end tag without a matching start tag"
  | .mismatchedEndTag .. => "end tag does not match the open element"
  | .unclosed _ => "element is never closed"
  | .noRoot => "document has no root element"
  | .tooDeep _ => "elements nested too deeply"
  | .secondRoot _ => "content after the root element"
  | .textOutsideRoot => "text outside the root element"
  | .unknownReference _ => "unknown entity reference"

def detail? : Fault → Option String
  | .strayEndTag tag => some s!"</{tag}>"
  | .mismatchedEndTag expected found => some s!"expected </{expected}>, found </{found}>"
  | .unclosed tag => some s!"<{tag}>"
  | .tooDeep tag => some s!"<{tag}> deeper than {maxDepth} levels"
  | .secondRoot tag => some s!"<{tag}>"
  | .unknownReference text => some text
  | _ => none

end Fault

structure LoadError where
  fault : Fault
  position : Text.Position
  deriving DecidableEq, Repr

def LoadError.message (e : LoadError) : String :=
  let place := e.fault.message ++ " at " ++ e.position.describe
  match e.fault.detail? with
  | some detail => place ++ " (" ++ detail ++ ")"
  | none => place

end Variability.Markup
