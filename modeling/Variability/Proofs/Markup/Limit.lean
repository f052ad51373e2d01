import Variability.Proofs.Markup.Amid
import Variability.Proofs.Markup.Spans

/-! A lexer that is told how many faults are enough. It is asked ahead of each byte, and
a byte brings one fault at most, so it stops right at the limit or goes through to the
end of the source, where one more fault can be reported. Either way the reports are the
beginning of those that are made without a limit. -/
namespace Variability.Markup
open Text

def Token.faults (reports : List Token) : Nat := reports.countP Token.isFault

@[simp] theorem Token.faults_append (reports more : List Token) :
    faults (reports ++ more) = faults reports + faults more :=
  List.countP_append

private theorem Token.faults_mono {reports more : List Token} (part : reports <+: more) :
    faults reports ≤ faults more :=
  part.sublist.countP_le

def Move.Single (m : Move) : Prop := Token.faults m.reports ≤ 1

private theorem Move.Single.after {m : Move} (single : m.Single) {report : Token}
    (harmless : report.isFault = false) : (m.after report).Single := by
  unfold Move.Single Token.faults Move.after
  rw [List.countP_cons, harmless]
  exact single

namespace Cursor

private theorem refuse_single (c : Cursor) (fault : LexicalFault) (i : Nat) :
    (c.refuse fault i).Single :=
  Nat.le_refl 1

private theorem goto_single (c : Cursor) (state : State) : (c.goto state).Single :=
  Nat.zero_le 1

private theorem beforeAttributeName_single (c : Cursor) (i : Nat) (b : UInt8) :
    (c.beforeAttributeName i b).Single := by
  unfold beforeAttributeName
  split
  case h_1 => exact Nat.zero_le 1
  case h_2 => exact c.goto_single _
  case h_7 => split <;> exact Nat.zero_le 1
  all_goals exact c.refuse_single _ _

private theorem afterAttributeName_single (c : Cursor) (i : Nat) (b : UInt8) :
    (c.afterAttributeName i b).Single := by
  unfold afterAttributeName
  split
  · exact c.goto_single _
  split
  · exact c.goto_single _
  · exact c.refuse_single _ _

private theorem afterEndName_single (c : Cursor) (i : Nat) (b : UInt8) :
    (c.afterEndName i b).Single := by
  unfold afterEndName
  split
  · exact Nat.zero_le 1
  split
  · exact c.goto_single _
  · exact c.refuse_single _ _

private theorem declaration_single (c : Cursor) (i : Nat) (b : UInt8) :
    (c.declaration i b).Single := by
  unfold declaration
  split
  · exact Nat.zero_le 1
  · exact c.goto_single _

/-- A byte may be read twice, in a state and in the one after it, but the first reading
reports the end of a name. -/
theorem step_single (c : Cursor) (i : Nat) (b : UInt8) : (c.step i b).Single := by
  obtain ⟨state, mark⟩ := c
  unfold step
  cases state with
  | tagName =>
    dsimp only
    split
    · exact (beforeAttributeName_single _ _ _).after rfl
    · exact goto_single _ _
  | endName =>
    dsimp only
    split
    · exact (afterEndName_single _ _ _).after rfl
    · exact goto_single _ _
  | attributeName =>
    dsimp only
    split
    · exact (afterAttributeName_single _ _ _).after rfl
    · exact goto_single _ _
  | beforeAttributeName => exact beforeAttributeName_single _ _ _
  | afterAttributeName => exact afterAttributeName_single _ _ _
  | afterEndName => exact afterEndName_single _ _ _
  | declaration => exact declaration_single _ _ _
  | cdataMark matched =>
    dsimp only
    split
    · split <;> exact Nat.zero_le 1
    · exact declaration_single _ _ _
  | beforeTagName | emptyTag | beforeEndName | beforeAttributeValue =>
    -- a byte that does not lead on is refused
    dsimp only
    repeat' split
    any_goals exact Nat.zero_le 1
    all_goals exact refuse_single _ _ _
  | text | attributeValue | beforeDeclaration | instruction | beforeComment | comment | cdata =>
    dsimp only
    repeat' split
    all_goals exact Nat.zero_le 1

end Cursor

namespace Lexer

theorem faultCount_eq (l : Lexer) : l.faultCount = Token.faults l.reports.toList :=
  Array.countP_toList.symm

private theorem faultCount_feed_le (l : Lexer) (b : UInt8) :
    (l.feed b).faultCount ≤ l.faultCount + 1 := by
  have single : Token.faults (l.cursor.step l.index b).reports ≤ 1 := l.cursor.step_single l.index b
  rw [faultCount_eq, faultCount_eq, toList_reports_feed, Token.faults_append]
  omega

@[simp] theorem run_never (l : Lexer) (source : List UInt8) :
    run (fun _ => false) l source = (source.foldl feed l).finish := by
  induction source generalizing l with
  | nil => rfl
  | cons b rest ih => exact ih (l.feed b)

theorem tokens_eq_finish (source : List UInt8) :
    tokens source = (source.foldl feed {}).finish.reports.toList := by
  rw [tokens, runAll, run_never]

private theorem reports_prefix_finish (l : Lexer) (source : List UInt8) :
    l.reports.toList <+: (source.foldl feed l).finish.reports.toList := by
  rw [toList_reports_finish, toList_reports_foldl_feed, List.append_assoc, List.append_assoc]
  exact List.prefix_append _ _

/-- The lexer stops when a part of the source has brought it to the limit, or it reads
everything and has not gone beyond the limit by then. -/
theorem run_limit_cases (limit : Nat) {l : Lexer} (few : l.faultCount ≤ limit) (rest : List UInt8) :
    (∃ read left, rest = read ++ left ∧ run (limit ≤ ·.faultCount) l rest = read.foldl feed l ∧
      (read.foldl feed l).faultCount = limit) ∨
    (run (limit ≤ ·.faultCount) l rest = (rest.foldl feed l).finish ∧
      (rest.foldl feed l).faultCount ≤ limit) := by
  induction rest generalizing l with
  | nil => exact .inr ⟨rfl, few⟩
  | cons b rest ih =>
    rw [run]
    by_cases full : limit ≤ l.faultCount
    · rw [if_pos (decide_eq_true full)]
      exact .inl ⟨[], b :: rest, rfl, rfl, Nat.le_antisymm few full⟩
    · rw [if_neg (by simpa using full)]
      have still : (l.feed b).faultCount ≤ limit := by
        have := l.faultCount_feed_le b
        omega
      rcases ih still with ⟨read, left, split, stopped, full⟩ | through
      · exact .inl ⟨b :: read, left, by rw [split, List.cons_append], stopped, full⟩
      · exact .inr through

theorem faults_finish {limit : Nat} {l : Lexer} (few : l.faultCount ≤ limit) :
    Token.faults l.finish.reports.toList ≤ limit + 1 ∧
      (Token.faults l.finish.reports.toList = limit + 1 → ∃ before fault,
        l.finish.reports.toList = before ++ [.fault fault l.index, .endOfSource] ∧
          Token.faults before = limit ∧ fault.isEnd = true) := by
  have silent : Token.faults [.endOfSource] = 0 := rfl
  rw [faultCount_eq] at few
  rw [toList_reports_finish, Token.faults_append, Token.faults_append, silent]
  rcases l.cursor.atEnd_cases l.index with ⟨_, last⟩ | ⟨_, fault, ends, last⟩
  · have faultless : Token.faults (l.cursor.atEnd l.index) = 0 := by
      rw [last]
      split <;> rfl
    exact ⟨by omega, by omega⟩
  · have one : Token.faults [.fault fault l.index] = 1 := rfl
    rw [last, one]
    refine ⟨by omega, fun beyond => ⟨l.reports.toList, fault, ?_, by omega, ends⟩⟩
    rw [List.append_assoc, List.singleton_append]

end Lexer

def tokensUpTo (limit : Nat) (source : List UInt8) : List Token :=
  (Lexer.runUpTo limit source).reports.toList

/-- A limit on the number of faults cuts the reports short and changes nothing else. They
go beyond the limit only by the fault that the source has ended. -/
theorem tokensUpTo_cuts_short (limit : Nat) (source : List UInt8) :
    tokensUpTo limit source <+: tokens source ∧
      Token.faults (tokensUpTo limit source) ≤ limit + 1 ∧
      (Token.faults (tokensUpTo limit source) = limit + 1 → ∃ before fault,
        tokensUpTo limit source = before ++ [.fault fault source.length, .endOfSource] ∧
          Token.faults before = limit ∧ fault.isEnd = true) ∧
      (Token.faults (tokens source) < limit → tokensUpTo limit source = tokens source) ∧
      (limit ≤ Token.faults (tokens source) → limit ≤ Token.faults (tokensUpTo limit source)) := by
  have fresh : Lexer.faultCount {} ≤ limit := Nat.zero_le limit
  rcases Lexer.run_limit_cases limit fresh source with
    ⟨read, left, rfl, stopped, full⟩ | ⟨through, few⟩
  · have cut : tokensUpTo limit (read ++ left) = (read.foldl Lexer.feed {}).reports.toList :=
      congrArg (·.reports.toList) stopped
    have part : tokensUpTo limit (read ++ left) <+: tokens (read ++ left) := by
      rw [cut, Lexer.tokens_eq_finish, List.foldl_append]
      exact Lexer.reports_prefix_finish _ left
    rw [Lexer.faultCount_eq, ← cut] at full
    have fewer := Token.faults_mono part
    exact ⟨part, by omega, by omega, by omega, by omega⟩
  · have whole : tokensUpTo limit source = tokens source := by
      rw [Lexer.tokens_eq_finish]
      exact congrArg (·.reports.toList) through
    have ending := Lexer.faults_finish few
    rw [← Lexer.tokens_eq_finish, index_foldl_feed, Nat.zero_add] at ending
    rw [whole]
    exact ⟨List.prefix_rfl, ending.1, ending.2, fun _ => rfl, id⟩

example : tokensUpTo 1 (bytes "<<a") = [.fault .badTagName 1] := by decide

theorem tokensUpTo_cuts_short_at_end :
    Token.faults (tokensUpTo 1 (bytes "<<")) = 1 + 1 ∧ ∃ before fault,
      tokensUpTo 1 (bytes "<<") = before ++ [.fault fault 2, .endOfSource] ∧
        Token.faults before = 1 ∧ fault.isEnd = true := by
  have two : Token.faults (tokensUpTo 1 (bytes "<<")) = 1 + 1 := by decide
  have last := (tokensUpTo_cuts_short 1 (bytes "<<")).2.2.1 two
  exact ⟨two, last⟩

end Variability.Markup
