/-! Strict reading of JSON, in two passes that each go once through their
input: characters become symbols, and symbols become a value. Numbers are only
checked for their form. A text may spell half of a surrogate pair; it is then
well formed but stands for no string. -/
namespace Variability.Json

inductive Source where
  | null
  | bool (value : Bool)
  | number
  | text (content : Option String)
  | array (items : List Source)
  | object (fields : List (Option String × Source))

inductive Symbol where
  | openArray
  | closeArray
  | openObject
  | closeObject
  | comma
  | colon
  | atom (value : Source)

/-! ## Characters to symbols -/

/-- The characters that code units spell, which surrogates do only in pairs. -/
def decodeUnits : List Nat → Option (List Char)
  | [] => some []
  | high :: rest =>
    if 0xD800 ≤ high && high < 0xDC00 then
      match rest with
      | low :: rest =>
        if 0xDC00 ≤ low && low < 0xE000 then
          (decodeUnits rest).map
            (Char.ofNat (0x10000 + (high - 0xD800) * 0x400 + (low - 0xDC00)) :: ·)
        else none
      | [] => none
    else if 0xDC00 ≤ high && high < 0xE000 then none
    else (decodeUnits rest).map (Char.ofNat high :: ·)

/-- A digit, or the empty rest: numbers end where their digits do. -/
def digitsThen (next : List Char → Bool) (cs : List Char) : Bool :=
  !(cs.takeWhile Char.isDigit).isEmpty && next (cs.dropWhile Char.isDigit)

def isExponent : List Char → Bool
  | [] => true
  | mark :: rest =>
    (mark == 'e' || mark == 'E') &&
      match rest with
      | '+' :: digits => digitsThen List.isEmpty digits
      | '-' :: digits => digitsThen List.isEmpty digits
      | digits => digitsThen List.isEmpty digits

def isFraction : List Char → Bool
  | '.' :: rest => digitsThen isExponent rest
  | rest => isExponent rest

/-- No leading zeros. -/
def isMagnitude : List Char → Bool
  | '0' :: rest => isFraction rest
  | cs => digitsThen isFraction cs

def isNumber : List Char → Bool
  | '-' :: rest => isMagnitude rest
  | cs => isMagnitude cs

def word? (cs : List Char) : Option Source :=
  if cs == "null".toList then some .null
  else if cs == "true".toList then some (.bool true)
  else if cs == "false".toList then some (.bool false)
  else if isNumber cs then some .number
  else none

def punctuation? : Char → Option Symbol
  | '[' => some .openArray
  | ']' => some .closeArray
  | '\x7b' => some .openObject
  | '\x7d' => some .closeObject
  | ',' => some .comma
  | ':' => some .colon
  | _ => none

def isGap (c : Char) : Bool := c == ' ' || c == '\t' || c == '\n' || c == '\r'

/-- What is being read. Code units and characters are kept last one first. -/
inductive Lexing where
  | gap
  | word (chars : List Char)
  | text (units : List Nat)
  | escape (units : List Nat)
  | hex (units : List Nat) (missing value : Nat)

structure Lexer where
  state : Lexing := .gap
  symbols : Array Symbol := #[]

namespace Lexer

def endWord (l : Lexer) (chars : List Char) : Option Lexer :=
  (word? chars.reverse).map fun value => ⟨.gap, l.symbols.push (.atom value)⟩

def between (l : Lexer) (c : Char) : Lexer :=
  if isGap c then l
  else if c == '"' then { l with state := .text [] }
  else
    match punctuation? c with
    | some symbol => { l with symbols := l.symbols.push symbol }
    | none => { l with state := .word [c] }

def escaped? : Char → Option Nat
  | '"' => some '"'.toNat
  | '\\' => some '\\'.toNat
  | '/' => some '/'.toNat
  | 'b' => some 0x08
  | 'f' => some 0x0C
  | 'n' => some 0x0A
  | 'r' => some 0x0D
  | 't' => some 0x09
  | _ => none

def hexDigit? (c : Char) : Option Nat :=
  if c.isDigit then some (c.toNat - '0'.toNat)
  else if 'a' ≤ c && c ≤ 'f' then some (c.toNat - 'a'.toNat + 10)
  else if 'A' ≤ c && c ≤ 'F' then some (c.toNat - 'A'.toNat + 10)
  else none

def step (l : Lexer) (c : Char) : Option Lexer :=
  match l.state with
  | .gap => some (l.between c)
  | .word chars =>
    if isGap c || c == '"' || (punctuation? c).isSome then
      (l.endWord chars).map (·.between c)
    else some { l with state := .word (c :: chars) }
  | .text units =>
    if c == '"' then
      let content := (decodeUnits units.reverse).map String.ofList
      some ⟨.gap, l.symbols.push (.atom (.text content))⟩
    else if c == '\\' then some { l with state := .escape units }
    else if c.toNat < 0x20 then none
    else some { l with state := .text (c.toNat :: units) }
  | .escape units =>
    if c == 'u' then some { l with state := .hex units 4 0 }
    else (escaped? c).map fun unit => { l with state := .text (unit :: units) }
  | .hex units missing value =>
    (hexDigit? c).map fun digit =>
      let value := 16 * value + digit
      { l with state := if missing ≤ 1 then .text (value :: units) else .hex units (missing - 1) value }

def finish (l : Lexer) : Option (Array Symbol) :=
  match l.state with
  | .gap => some l.symbols
  | .word chars => (l.endWord chars).map (·.symbols)
  | _ => none

end Lexer

/-! ## Symbols to a value -/

/-- An open container: its finished items, last one first, and for an object
the key whose value is awaited. -/
inductive Frame where
  | array (items : List Source)
  | object (fields : List (Option String × Source)) (key : Option (Option String))

inductive Awaits where
  | value
  | valueOrClose
  | key
  | keyOrClose
  | colon
  | commaOrClose
  | nothing

structure Parser where
  frames : List Frame := []
  awaits : Awaits := .value
  result : Option Source := none

namespace Parser

def put (p : Parser) (value : Source) : Option Parser :=
  match p.frames with
  | [] => some { p with awaits := .nothing, result := some value }
  | .array items :: outer =>
    some { p with frames := .array (value :: items) :: outer, awaits := .commaOrClose }
  | .object fields (some key) :: outer =>
    some { p with frames := .object ((key, value) :: fields) none :: outer, awaits := .commaOrClose }
  | .object _ none :: _ => none

def close (p : Parser) : Option Parser :=
  match p.frames with
  | .array items :: outer => { p with frames := outer }.put (.array items.reverse)
  | .object fields none :: outer => { p with frames := outer }.put (.object fields.reverse)
  | _ => none

def closesArray (p : Parser) : Bool :=
  match p.frames with
  | .array _ :: _ => true
  | _ => false

def start (p : Parser) : Symbol → Option Parser
  | .atom value => p.put value
  | .openArray => some { p with frames := .array [] :: p.frames, awaits := .valueOrClose }
  | .openObject => some { p with frames := .object [] none :: p.frames, awaits := .keyOrClose }
  | _ => none

def readKey (p : Parser) : Symbol → Option Parser
  | .atom (.text key) =>
    match p.frames with
    | .object fields none :: outer =>
      some { p with frames := .object fields (some key) :: outer, awaits := .colon }
    | _ => none
  | _ => none

def step (p : Parser) (symbol : Symbol) : Option Parser :=
  match p.awaits, symbol with
  | .value, symbol => p.start symbol
  | .valueOrClose, .closeArray => p.close
  | .valueOrClose, symbol => p.start symbol
  | .key, symbol => p.readKey symbol
  | .keyOrClose, .closeObject => p.close
  | .keyOrClose, symbol => p.readKey symbol
  | .colon, .colon => some { p with awaits := .value }
  | .commaOrClose, .comma => some { p with awaits := if p.closesArray then .value else .key }
  | .commaOrClose, .closeArray => if p.closesArray then p.close else none
  | .commaOrClose, .closeObject => if p.closesArray then none else p.close
  | _, _ => none

end Parser

def read? (document : String) : Option Source := do
  let lexer ← document.toList.foldlM Lexer.step {}
  let symbols ← lexer.finish
  let parser ← symbols.toList.foldlM Parser.step {}
  parser.result

end Variability.Json
