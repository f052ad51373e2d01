import Variability.Proofs.Markup.Amid
import Variability.Proofs.Markup.Displacement

/-! Declarations: `<!` that opens neither a comment nor a section of character data. The
lexer reads a declaration up to its first `>` and reports nothing on it. Right behind
`<!` and `<!-` it waits for another opening, and a `>` there does not count. -/
namespace Variability.Markup
open Text

/-- The bytes ahead do not lead out of a declaration, except through a `>`. -/
def State.Declares (ahead : List UInt8) : State → Prop
  | .beforeDeclaration => ¬ bytes "--" <+: ahead ∧ ¬ bytes "[CDATA[" <+: ahead ∧
      ¬ bytes ">" <+: ahead ∧ ¬ bytes "->" <+: ahead
  | .beforeComment => ¬ bytes "-" <+: ahead ∧ ¬ bytes ">" <+: ahead
  | .cdataMark matched => ¬ (bytes "CDATA[").drop matched <+: ahead
  | .declaration => True
  | _ => False

private theorem getElem?_cdataMark_iff (matched : Nat) (b : UInt8) :
    cdataMark[matched]? = some (Char.ofUInt8 b) ↔ (bytes "CDATA[")[matched]? = some b := by
  have spelled : cdataMark = (bytes "CDATA[").map Char.ofUInt8 := rfl
  rw [spelled, List.getElem?_map, Option.map_eq_some_iff]
  constructor
  · rintro ⟨a, found, same⟩
    rwa [← eq_of_char same]
  · intro found
    exact ⟨b, found, rfl⟩

namespace Cursor
variable {c : Cursor} {ahead : List UInt8} {b : UInt8}

private theorem step_declares (declares : c.state.Declares (b :: ahead)) (inside : b ≠ 0x3E)
    (i : Nat) : ∃ next, c.step i b = ⟨next, []⟩ ∧ next.state.Declares ahead := by
  obtain ⟨state, mark⟩ := c
  have dash : (Char.ofUInt8 b == '-') = (b == 0x2D) := ofUInt8_beq b 0x2D
  have square : (Char.ofUInt8 b == '[') = (b == 0x5B) := ofUInt8_beq b 0x5B
  have closer : (Char.ofUInt8 b == '>') = false := by
    rw [show '>' = Char.ofUInt8 0x3E from rfl, ofUInt8_beq]
    simpa using inside
  have goesOn : (⟨state, mark⟩ : Cursor).declaration i b = ⟨⟨.declaration, mark⟩, []⟩ := by
    simp [declaration, closer, goto]
  cases state with
  | beforeDeclaration =>
    obtain ⟨comment, data, _, early⟩ := declares
    simp only [step, dash, square]
    split
    case isTrue is =>
      obtain rfl := eq_of_beq is
      refine ⟨_, rfl, fun dashed => comment ?_, fun closed => early ?_⟩
      · exact List.cons_prefix_cons.mpr ⟨rfl, dashed⟩
      · exact List.cons_prefix_cons.mpr ⟨rfl, closed⟩
    case isFalse =>
      split
      case isTrue is =>
        obtain rfl := eq_of_beq is
        exact ⟨_, rfl, fun marked => data (List.cons_prefix_cons.mpr ⟨rfl, marked⟩)⟩
      case isFalse => exact ⟨_, rfl, trivial⟩
  | beforeComment =>
    have single : ¬ b = 0x2D := by
      rintro rfl
      exact declares.1 ⟨ahead, rfl⟩
    simp only [step, dash, beq_iff_eq, single, if_false]
    exact ⟨_, rfl, trivial⟩
  | cdataMark matched =>
    simp only [step, beq_iff_eq]
    split
    case isTrue is =>
      rw [getElem?_cdataMark_iff] at is
      obtain ⟨bound, here⟩ := List.getElem?_eq_some_iff.mp is
      have marked : (bytes "CDATA[").drop matched = b :: (bytes "CDATA[").drop (matched + 1) := by
        rw [List.drop_eq_getElem_cons bound, here]
      rw [State.Declares, marked, List.cons_prefix_cons, not_and] at declares
      split
      case isTrue all =>
        rw [all] at declares
        exact absurd List.nil_prefix (declares rfl)
      case isFalse => exact ⟨_, rfl, declares rfl⟩
    case isFalse => exact ⟨_, goesOn, trivial⟩
  | declaration => exact ⟨_, goesOn, trivial⟩
  | _ => exact declares.elim

private theorem step_close (declares : c.state.Declares (0x3E :: ahead)) (i : Nat) :
    c.step i 0x3E = toText i := by
  obtain ⟨state, mark⟩ := c
  cases state with
  | beforeDeclaration => exact absurd ⟨ahead, rfl⟩ declares.2.2.1
  | beforeComment => exact absurd ⟨ahead, rfl⟩ declares.2
  | cdataMark matched =>
    have other : ¬ cdataMark[matched]? = some (Char.ofUInt8 0x3E) :=
      fun found => absurd (List.mem_of_getElem? found) (by decide)
    simp only [step, beq_iff_eq, other, if_false]
    rfl
  | declaration => rfl
  | _ => exact declares.elim

private theorem atEnd_declares (declares : c.state.Declares []) (i : Nat) :
    ∃ fault : LexicalFault, fault.isEnd = true ∧ c.atEnd i = [.fault fault i] := by
  rcases c.atEnd_cases i with ⟨inText, _⟩ | ⟨_, early⟩
  · rw [inText] at declares
    exact declares.elim
  · exact early

theorem scan_declares {body : List UInt8} (declares : c.state.Declares (body ++ ahead))
    (inside : 0x3E ∉ body) (i : Nat) :
    ∃ next, c.scan i body = (next, []) ∧ next.state.Declares ahead := by
  induction body generalizing c i with
  | nil => exact ⟨c, rfl, declares⟩
  | cons b body ih =>
    rw [List.mem_cons, not_or] at inside
    obtain ⟨next, now, leads⟩ := step_declares declares (Ne.symm inside.1) i
    obtain ⟨last, later, leads⟩ := ih leads inside.2 (i + 1)
    refine ⟨last, ?_, leads⟩
    simp only [scan, now, later, List.append_nil]

theorem scan_declaration {body : List UInt8} (declares : c.state.Declares (body ++ 0x3E :: ahead))
    (inside : 0x3E ∉ body) (i : Nat) :
    c.scan i (body ++ [0x3E]) = (⟨.text, i + body.length + 1⟩, []) := by
  obtain ⟨next, scanned, leads⟩ := scan_declares declares inside i
  refine scan_append_of_eq scanned ?_
  simp only [scan, step_close leads]
  rfl

theorem remaining_of_unclosed {body : List UInt8} (declares : c.state.Declares body)
    (inside : 0x3E ∉ body) (i : Nat) :
    ∃ fault : LexicalFault, fault.isEnd = true ∧
      c.remaining i body = [.fault fault (i + body.length)] := by
  rw [← List.append_nil body] at declares
  obtain ⟨next, scanned, leads⟩ := scan_declares declares inside i
  obtain ⟨fault, ends, reported⟩ := atEnd_declares leads (i + body.length)
  refine ⟨fault, ends, ?_⟩
  rw [remaining, scanned]
  exact reported

end Cursor

section Reading
variable {before rest tail : String}

theorem tokens_readThrough_append (source more : String) :
    tokens (bytes (source ++ more)) = (readThrough source).reports.toList ++
      (readThrough source).cursor.remaining source.utf8ByteSize (bytes more) ++ [.endOfSource] := by
  rw [bytes_append, tokens_append, cursor_readThrough, reports_readThrough, length_bytes]

private theorem cursor_readThrough_bracket (text : (readThrough before).cursor.state = .text) :
    (readThrough (before ++ "<")).cursor = ⟨.beforeTagName, before.utf8ByteSize⟩ := by
  have opens : bytes "<" = [0x3C] := rfl
  rw [readThrough_append, opens, List.foldl_cons, List.foldl_nil, Lexer.feed, Cursor.step, text,
    index_readThrough]
  rfl

/-- The `>`, with what stands ahead of it, that is read over at the start of a
declaration. -/
def overlooked (rest : String) : String :=
  if ">".toList <+: rest.toList then ">"
  else if "->".toList <+: rest.toList then "->"
  else ""

private theorem overlooked_cases (rest : String) :
    overlooked rest = ">" ∨ overlooked rest = "->" ∨
      overlooked rest = "" ∧ ¬ ">".toList <+: rest.toList ∧ ¬ "->".toList <+: rest.toList := by
  unfold overlooked
  split
  · exact .inl rfl
  split
  · exact .inr (.inl rfl)
  · exact .inr (.inr ⟨rfl, ‹_›, ‹_›⟩)

private theorem exists_overlooked (rest : String) : ∃ tail, rest = overlooked rest ++ tail := by
  have cut {mark : String} (found : mark.toList <+: rest.toList) : ∃ tail, rest = mark ++ tail := by
    obtain ⟨tail, split⟩ := found
    refine ⟨String.ofList tail, String.toList_inj.mp ?_⟩
    rw [String.toList_append, String.toList_ofList, split]
  unfold overlooked
  split
  · exact cut ‹_›
  split
  · exact cut ‹_›
  · exact ⟨rest, String.empty_append.symm⟩

/-- After `before` the lexer is in text, and what follows is `<!` and then `rest`, which
opens neither a comment nor a section of character data. -/
structure OpensDeclaration (before rest : String) : Prop where
  text : (readThrough before).cursor.state = .text
  noComment : ¬ "--".toList <+: rest.toList
  noData : ¬ "[CDATA[".toList <+: rest.toList

theorem OpensDeclaration.scan_overlooked (opens : OpensDeclaration before rest)
    (split : rest = overlooked rest ++ tail) (mark i : Nat) :
    ∃ c, Cursor.scan ⟨.beforeDeclaration, mark⟩ i (bytes (overlooked rest)) = (c, []) ∧
      c.state.Declares (bytes tail) := by
  rcases overlooked_cases rest with is | is | ⟨is, noBracket, noDash⟩
  · exact ⟨⟨.declaration, mark⟩, by rw [is]; rfl, trivial⟩
  · exact ⟨⟨.declaration, i + 1⟩, by rw [is]; rfl, trivial⟩
  · rw [is, String.empty_append] at split
    subst split
    refine ⟨⟨.beforeDeclaration, mark⟩, by rw [is]; rfl, ?_, ?_, ?_, ?_⟩
    · exact fun found => opens.noComment (prefix_toList_of_bytes rfl rfl found)
    · exact fun found => opens.noData (prefix_toList_of_bytes rfl rfl found)
    · exact fun found => noBracket (prefix_toList_of_bytes rfl rfl found)
    · exact fun found => noDash (prefix_toList_of_bytes rfl rfl found)

theorem OpensDeclaration.readThrough_overlooked (opens : OpensDeclaration before rest)
    (split : rest = overlooked rest ++ tail) :
    (readThrough (before ++ "<!" ++ overlooked rest)).reports =
        (readThrough (before ++ "<")).reports ∧
      (readThrough (before ++ "<!" ++ overlooked rest)).cursor.state.Declares (bytes tail) := by
  have whole : before ++ "<!" ++ overlooked rest = before ++ "<" ++ ("!" ++ overlooked rest) := by
    rw [String.append_assoc, String.append_assoc]
    rfl
  have bang : Cursor.scan ⟨.beforeTagName, before.utf8ByteSize⟩ (before ++ "<").utf8ByteSize
      (bytes "!") = (⟨.beforeDeclaration, (before ++ "<").utf8ByteSize + 1⟩, []) := rfl
  obtain ⟨c, scanned, declares⟩ := opens.scan_overlooked split _ _
  have silent := Cursor.scan_append_of_eq bang scanned
  rw [← cursor_readThrough_bracket opens.text, ← bytes_append] at silent
  rw [whole, readThrough_append_of_silent silent]
  exact ⟨rfl, declares⟩

private theorem readThrough_close {read body after : String}
    (declares : (readThrough read).cursor.state.Declares (bytes (body ++ ">" ++ after)))
    (inside : 0x3E ∉ bytes body) :
    readThrough (read ++ (body ++ ">")) = ⟨⟨.text, (read ++ (body ++ ">")).utf8ByteSize⟩,
      (read ++ (body ++ ">")).utf8ByteSize, (readThrough read).reports⟩ := by
  apply readThrough_append_of_silent
  rw [bytes_append, bytes_append, List.append_assoc] at declares
  have scanned := Cursor.scan_declaration declares inside read.utf8ByteSize
  rw [length_bytes, Nat.add_assoc] at scanned
  rw [bytes_append, String.utf8ByteSize_append, String.utf8ByteSize_append]
  exact scanned

end Reading

/-- Nothing is reported on a declaration. Right behind its end, which is the first `>` that
is not overlooked, the lexer is back in text and goes on from there. Without an end there
is one fault, where the source ends. -/
theorem tokens_declaration (before rest : String) (opens : OpensDeclaration before rest) :
    ∃ tail, rest = overlooked rest ++ tail ∧
      (∀ body after, tail = body ++ ">" ++ after → '>' ∉ body.toList →
        let read := before ++ "<!" ++ overlooked rest ++ (body ++ ">")
        readThrough read = ⟨⟨.text, read.utf8ByteSize⟩, read.utf8ByteSize,
          (readThrough (before ++ "<")).reports⟩ ∧
        tokens (bytes (before ++ "<!" ++ rest)) = (readThrough (before ++ "<")).reports.toList ++
          Cursor.remaining ⟨.text, read.utf8ByteSize⟩ read.utf8ByteSize (bytes after) ++
            [.endOfSource]) ∧
      ('>' ∉ tail.toList → ∃ fault : LexicalFault, fault.isEnd = true ∧
        tokens (bytes (before ++ "<!" ++ rest)) = (readThrough (before ++ "<")).reports.toList ++
          [.fault fault (before ++ "<!" ++ rest).utf8ByteSize, .endOfSource]) := by
  obtain ⟨tail, split⟩ := exists_overlooked rest
  obtain ⟨reports, declares⟩ := opens.readThrough_overlooked split
  have whole : before ++ "<!" ++ rest = before ++ "<!" ++ overlooked rest ++ tail := by
    calc
      _ = before ++ "<!" ++ (overlooked rest ++ tail) := by rw [← split]
      _ = _ := String.append_assoc.symm
  have inside {body : String} (free : '>' ∉ body.toList) : 0x3E ∉ bytes body :=
    fun found => free (mem_toList_of_mem_bytes (by decide) found)
  refine ⟨tail, split, ?_, ?_⟩
  · rintro body after rfl free read
    have closed := readThrough_close declares (inside free)
    rw [reports] at closed
    refine ⟨closed, ?_⟩
    rw [whole, ← String.append_assoc, tokens_readThrough_append, closed]
  · intro free
    obtain ⟨fault, ends, reported⟩ := Cursor.remaining_of_unclosed declares (inside free)
      (before ++ "<!" ++ overlooked rest).utf8ByteSize
    refine ⟨fault, ends, ?_⟩
    rw [length_bytes, ← String.utf8ByteSize_append] at reported
    rw [whole, tokens_readThrough_append, reports, reported, List.append_assoc]
    rfl

theorem tokens_declaration_like_cdata :
    OpensDeclaration "<a>t" "[CDAT><b/>" ∧
      readThrough "<a>t<![CDAT>" =
        ⟨⟨.text, 12⟩, 12, #[.startName ⟨1, 2⟩, .startEnd 2, .text ⟨3, 4⟩]⟩ ∧
      tokens (bytes "<a>t<![CDAT><b/>") = [.startName ⟨1, 2⟩, .startEnd 2, .text ⟨3, 4⟩,
        .startName ⟨13, 14⟩, .emptyEnd 15, .endOfSource] := by
  have opens : OpensDeclaration "<a>t" "[CDAT><b/>" := ⟨rfl, by decide, by decide⟩
  obtain ⟨tail, split, skips, _⟩ := tokens_declaration "<a>t" "[CDAT><b/>" opens
  have nothing : overlooked "[CDAT><b/>" = "" := rfl
  rw [nothing, String.empty_append] at split
  have skipped := skips "[CDAT" "<b/>" split.symm (by decide)
  exact ⟨opens, skipped.1, skipped.2⟩

/-- The `>` right behind `<!` or `<!-` is overlooked, and the tag that follows goes with the
declaration. -/
theorem tokens_declaration_closed_early :
    OpensDeclaration "" "><a/>" ∧ (readThrough "<!>").cursor.state = .declaration ∧
      tokens (bytes "<!><a/>") = [.endOfSource] ∧
      OpensDeclaration "" "-><a/>" ∧ (readThrough "<!->").cursor.state = .declaration ∧
      tokens (bytes "<!-><a/>") = [.endOfSource] :=
  ⟨⟨rfl, by decide, by decide⟩, rfl, rfl, ⟨rfl, by decide, by decide⟩, rfl, rfl⟩

end Variability.Markup
