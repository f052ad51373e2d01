import Variability.Markup.Token

/-! The lexer reads a source byte by byte and never looks ahead: what it has to
remember of the bytes behind it is part of its state. It reports a fault and
goes on, unless it has been told how many faults are enough. All delimiters are
ASCII, so every byte above is part of a name or of text. -/
namespace Variability.Markup

def isTagStart (b : UInt8) : Bool :=
  let c := Char.ofUInt8 b
  c.isAlpha || c == '_' || c == ':' || 0x80 ≤ b

def isSpace (b : UInt8) : Bool :=
  b == 0x20 || b == 0x0A || b == 0x09 || b == 0x0D

def endsName (b : UInt8) : Bool :=
  Char.ofUInt8 b == '/' || Char.ofUInt8 b == '>' || isSpace b

inductive State where
  | text
  | beforeTagName
  | tagName
  | emptyTag
  | beforeEndName
  | endName
  | afterEndName
  | beforeAttributeName
  | attributeName
  | afterAttributeName
  | beforeAttributeValue
  | attributeValue (quote : Quote)
  | beforeDeclaration
  | declaration
  /-- Whether the last byte of the body is a question mark. -/
  | instruction (questioned : Bool)
  | beforeComment
  /-- How many dashes end the body. -/
  | comment (dashes : Nat)
  /-- How much of `CDATA[` has been read. -/
  | cdataMark (matched : Nat)
  /-- How many square brackets end the body. -/
  | cdata (brackets : Nat)
  deriving DecidableEq, Repr

/-- A state, and where the section began that is being read. -/
structure Cursor where
  state : State := .text
  mark : Nat := 0
  deriving DecidableEq, Repr

structure Move where
  next : Cursor
  reports : List Token := []

def Move.after (m : Move) (report : Token) : Move :=
  { m with reports := report :: m.reports }

def cdataMark : List Char := ['C', 'D', 'A', 'T', 'A', '[']

namespace Cursor

def refuse (c : Cursor) (fault : LexicalFault) (i : Nat) : Move :=
  ⟨c, [.fault fault i]⟩

def goto (c : Cursor) (state : State) : Move :=
  ⟨{ c with state }, []⟩

def toText (i : Nat) (reports : List Token := []) : Move :=
  ⟨⟨.text, i + 1⟩, reports⟩

def beforeAttributeName (c : Cursor) (i : Nat) (b : UInt8) : Move :=
  match Char.ofUInt8 b with
  | '>' => toText i [.startEnd i]
  | '/' => c.goto .emptyTag
  | '=' | '"' | '\'' | '<' => c.refuse .badAttribute i
  | _ => if isSpace b then c.goto .beforeAttributeName else ⟨⟨.attributeName, i⟩, []⟩

def afterAttributeName (c : Cursor) (i : Nat) (b : UInt8) : Move :=
  if Char.ofUInt8 b == '=' then c.goto .beforeAttributeValue
  else if isSpace b then c.goto .afterAttributeName
  else c.refuse .badAttribute i

def afterEndName (c : Cursor) (i : Nat) (b : UInt8) : Move :=
  if Char.ofUInt8 b == '>' then toText i
  else if isSpace b then c.goto .afterEndName
  else c.refuse .junkInEndTag i

def declaration (c : Cursor) (i : Nat) (b : UInt8) : Move :=
  if Char.ofUInt8 b == '>' then toText i else c.goto .declaration

/-- The effect of the byte `b` at offset `i`. -/
def step (c : Cursor) (i : Nat) (b : UInt8) : Move :=
  let char := Char.ofUInt8 b
  match c.state with
  | .text =>
    if char == '<' then
      ⟨⟨.beforeTagName, i⟩, if c.mark < i then [.text ⟨c.mark, i⟩] else []⟩
    else c.goto .text
  | .beforeTagName =>
    if char == '!' then ⟨⟨.beforeDeclaration, i + 1⟩, []⟩
    else if char == '?' then ⟨⟨.instruction false, i + 1⟩, []⟩
    else if char == '/' then c.goto .beforeEndName
    else if isTagStart b then ⟨⟨.tagName, i⟩, []⟩
    else c.refuse .badTagName i
  | .tagName =>
    if endsName b then
      (beforeAttributeName ⟨.beforeAttributeName, i⟩ i b).after (.startName ⟨c.mark, i⟩)
    else c.goto .tagName
  | .emptyTag =>
    if char == '>' then toText i [.emptyEnd i] else c.refuse .badAttribute i
  | .beforeEndName =>
    if char == '>' then c.refuse .namelessEndTag i
    else if isTagStart b then ⟨⟨.endName, i⟩, []⟩
    else c.refuse .badTagName i
  | .endName =>
    if char == '>' || isSpace b then
      (afterEndName ⟨.afterEndName, i + 1⟩ i b).after (.endName ⟨c.mark, i⟩)
    else c.goto .endName
  | .afterEndName => c.afterEndName i b
  | .beforeAttributeName => c.beforeAttributeName i b
  | .attributeName =>
    if char == '=' || endsName b then
      (afterAttributeName ⟨.afterAttributeName, i⟩ i b).after (.attributeName ⟨c.mark, i⟩)
    else c.goto .attributeName
  | .afterAttributeName => c.afterAttributeName i b
  | .beforeAttributeValue =>
    if char == '"' then ⟨⟨.attributeValue .double, i + 1⟩, []⟩
    else if char == '\'' then ⟨⟨.attributeValue .single, i + 1⟩, []⟩
    else if isSpace b then c.goto .beforeAttributeValue
    else c.refuse .badAttribute i
  | .attributeValue quote =>
    if char == quote.char then
      ⟨⟨.beforeAttributeName, i + 1⟩,
        (if c.mark < i then [.attributeValue ⟨c.mark, i⟩] else []) ++ [.attributeEnd quote i]⟩
    else c.goto c.state
  | .beforeDeclaration =>
    if char == '-' then ⟨⟨.beforeComment, i + 1⟩, []⟩
    else if char == '[' then ⟨⟨.cdataMark 0, i + 1⟩, []⟩
    else c.goto .declaration
  | .declaration => c.declaration i b
  | .instruction questioned =>
    if char == '>' && questioned then toText i [.instruction ⟨c.mark, i - 1⟩]
    else c.goto (.instruction (char == '?'))
  | .beforeComment =>
    if char == '-' then ⟨⟨.comment 0, i + 1⟩, []⟩ else c.goto .declaration
  | .comment dashes =>
    if char == '>' && 2 ≤ dashes then toText i [.comment ⟨c.mark, i - 2⟩]
    else c.goto (.comment (if char == '-' then dashes + 1 else 0))
  | .cdataMark matched =>
    if cdataMark[matched]? == some char then
      if matched + 1 == cdataMark.length then ⟨⟨.cdata 0, i + 1⟩, []⟩
      else c.goto (.cdataMark (matched + 1))
    else c.declaration i b
  | .cdata brackets =>
    if char == '>' && 2 ≤ brackets then toText i [.cdata ⟨c.mark, i - 2⟩]
    else c.goto (.cdata (if char == ']' then brackets + 1 else 0))

def atEnd (c : Cursor) (i : Nat) : List Token :=
  match c.state with
  | .text => if c.mark < i then [.text ⟨c.mark, i⟩] else []
  | .beforeComment | .comment _ => [.fault .endInComment i]
  | .cdataMark _ | .cdata _ => [.fault .endInCdata i]
  | .instruction _ => [.fault .endInInstruction i]
  | _ => [.fault .endInTag i]

end Cursor

structure Lexer where
  cursor : Cursor := {}
  index : Nat := 0
  reports : Array Token := #[]

namespace Lexer

def faultCount (l : Lexer) : Nat := l.reports.countP Token.isFault

def feed (l : Lexer) (b : UInt8) : Lexer :=
  let move := l.cursor.step l.index b
  ⟨move.next, l.index + 1, l.reports ++ move.reports⟩

def finish (l : Lexer) : Lexer :=
  { l with reports := l.reports ++ l.cursor.atEnd l.index ++ [Token.endOfSource] }

/-- Reads to the end of the source, or stops ahead of a byte once `enough`. -/
def run (enough : Lexer → Bool) (l : Lexer) : List UInt8 → Lexer
  | [] => l.finish
  | b :: rest => if enough l then l else run enough (l.feed b) rest

/-- Stops once `limit` faults have been reported. -/
def runUpTo (limit : Nat) (source : List UInt8) : Lexer :=
  run (limit ≤ ·.faultCount) {} source

def runAll (source : List UInt8) : Lexer :=
  run (fun _ => false) {} source

end Lexer

def tokens (source : List UInt8) : List Token :=
  (Lexer.runAll source).reports.toList

end Variability.Markup
