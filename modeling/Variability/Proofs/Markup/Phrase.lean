import Variability.Proofs.Markup.Scan

/-! Reports come in phrases. A whole tag is a phrase, and so is every report that
stands by itself. The lexer is in the middle of a phrase exactly while it reads a
start tag, so the reports on a source without faults are whole phrases. -/
namespace Variability.Markup

/-- Reports that stand by themselves and open or close nothing. -/
inductive Leaf where
  | text (span : Span)
  | cdata (span : Span)
  | comment (span : Span)
  | instruction (span : Span)
  deriving DecidableEq, Repr

def Leaf.token : Leaf → Token
  | .text span => .text span
  | .cdata span => .cdata span
  | .comment span => .comment span
  | .instruction span => .instruction span

structure AttributeParts where
  name : Span
  value : Option Span
  quote : Quote
  stop : Nat
  deriving DecidableEq, Repr

def AttributeParts.tokens (a : AttributeParts) : List Token :=
  .attributeName a.name :: a.value.toList.map .attributeValue ++ [.attributeEnd a.quote a.stop]

structure TagParts where
  name : Span
  attributes : List AttributeParts := []
  deriving DecidableEq, Repr

def TagParts.tokens (tag : TagParts) : List Token :=
  .startName tag.name :: tag.attributes.flatMap AttributeParts.tokens

inductive Phrase where
  | leaf (leaf : Leaf)
  | start (tag : TagParts) (stop : Nat)
  | empty (tag : TagParts) (stop : Nat)
  | close (name : Span)
  deriving DecidableEq, Repr

namespace Phrase

def tokens : Phrase → List Token
  | .leaf l => [l.token]
  | .start tag stop => tag.tokens ++ [.startEnd stop]
  | .empty tag stop => tag.tokens ++ [.emptyEnd stop]
  | .close name => [.endName name]

def allTokens (phrases : List Phrase) : List Token := phrases.flatMap tokens

@[simp] theorem allTokens_nil : allTokens [] = [] := rfl

@[simp] theorem allTokens_cons (p : Phrase) (phrases : List Phrase) :
    allTokens (p :: phrases) = p.tokens ++ allTokens phrases := rfl

@[simp] theorem allTokens_append (phrases more : List Phrase) :
    allTokens (phrases ++ more) = allTokens phrases ++ allTokens more :=
  List.flatMap_append

end Phrase

inductive Stage where
  | between
  | inTag
  /-- The name of an attribute is known. -/
  | named
  /-- Its value is known as well. -/
  | valued
  deriving DecidableEq, Repr

def Stage.after : Stage → Token → Option Stage
  | .between, .text _ | .between, .cdata _ | .between, .comment _ | .between, .instruction _ =>
    some .between
  | .between, .endName _ => some .between
  | .between, .startName _ => some .inTag
  | .inTag, .attributeName _ => some .named
  | .inTag, .startEnd _ | .inTag, .emptyEnd _ => some .between
  | .named, .attributeValue _ => some .valued
  | .named, .attributeEnd .. | .valued, .attributeEnd .. => some .inTag
  | _, _ => none

def State.stage : State → Stage
  | .emptyTag | .beforeAttributeName | .attributeName => .inTag
  | .afterAttributeName | .beforeAttributeValue | .attributeValue _ => .named
  | _ => .between

/-- The reports of a move lead from `stage` to the stage of the next state,
unless one of them is a fault. -/
def Move.Leads (stage : Stage) (m : Move) : Prop :=
  m.reports.any Token.isFault = true ∨ m.reports.foldlM Stage.after stage = some m.next.state.stage

private theorem Move.Leads.after {m : Move} {stage next : Stage} {report : Token}
    (may : stage.after report = some next) (h : m.Leads next) : (m.after report).Leads stage := by
  refine h.imp (fun fault => ?_) (fun leads => ?_)
  · simp [Move.after, fault]
  · rw [Move.after, List.foldlM_cons, may]
    exact leads

namespace Cursor

private theorem refuse_leads (c : Cursor) (fault : LexicalFault) (i : Nat) (stage : Stage) :
    (c.refuse fault i).Leads stage :=
  Or.inl rfl

private theorem beforeAttributeName_leads (c : Cursor) (i : Nat) (b : UInt8) :
    (c.beforeAttributeName i b).Leads .inTag := by
  unfold beforeAttributeName
  split
  · exact Or.inr rfl
  · exact Or.inr rfl
  · exact c.refuse_leads _ _ _
  · exact c.refuse_leads _ _ _
  · exact c.refuse_leads _ _ _
  · exact c.refuse_leads _ _ _
  · split <;> exact Or.inr rfl

private theorem afterAttributeName_leads (c : Cursor) (i : Nat) (b : UInt8) :
    (c.afterAttributeName i b).Leads .named := by
  unfold afterAttributeName
  split
  · exact Or.inr rfl
  · split
    · exact Or.inr rfl
    · exact c.refuse_leads _ _ _

private theorem afterEndName_leads (c : Cursor) (i : Nat) (b : UInt8) :
    (c.afterEndName i b).Leads .between := by
  unfold afterEndName
  split
  · exact Or.inr rfl
  · split
    · exact Or.inr rfl
    · exact c.refuse_leads _ _ _

private theorem declaration_leads (c : Cursor) (i : Nat) (b : UInt8) :
    (c.declaration i b).Leads .between := by
  unfold declaration
  split <;> exact Or.inr rfl

theorem step_leads (c : Cursor) (i : Nat) (b : UInt8) : (c.step i b).Leads c.state.stage := by
  obtain ⟨state, mark⟩ := c
  unfold step
  cases state with
  | tagName =>
    dsimp only
    split
    · exact (beforeAttributeName_leads _ _ _).after rfl
    · exact Or.inr rfl
  | attributeName =>
    dsimp only
    split
    · exact (afterAttributeName_leads _ _ _).after rfl
    · exact Or.inr rfl
  | endName =>
    dsimp only
    split
    · exact (afterEndName_leads _ _ _).after rfl
    · exact Or.inr rfl
  | beforeAttributeName => exact beforeAttributeName_leads _ _ _
  | afterAttributeName => exact afterAttributeName_leads _ _ _
  | afterEndName => exact afterEndName_leads _ _ _
  | declaration => exact declaration_leads _ _ _
  | cdataMark matched =>
    dsimp only
    split
    · split <;> exact Or.inr rfl
    · exact declaration_leads _ _ _
  | beforeTagName | emptyTag | beforeEndName | beforeAttributeValue =>
    -- a byte that does not lead on is refused
    dsimp only
    repeat' split
    any_goals exact Or.inr rfl
    all_goals exact refuse_leads _ _ _ _
  | text | attributeValue | beforeDeclaration | instruction | beforeComment | comment | cdata =>
    dsimp only
    repeat' split
    all_goals exact Or.inr rfl

theorem scan_leads (c : Cursor) (i : Nat) (bs : List UInt8)
    (clean : ∀ t ∈ (c.scan i bs).2, t.isFault = false) :
    (c.scan i bs).2.foldlM Stage.after c.state.stage = some (c.scan i bs).1.state.stage := by
  induction bs generalizing c i with
  | nil => rfl
  | cons b bs ih =>
    simp only [scan, List.mem_append] at clean ⊢
    have now := (c.step_leads i b).resolve_left fun fault => by
      obtain ⟨t, reported, isFault⟩ := List.any_eq_true.mp fault
      rw [clean t (.inl reported)] at isFault
      contradiction
    rw [List.foldlM_append, now]
    exact ih _ _ fun t reported => clean t (.inr reported)

theorem atEnd_leads (c : Cursor) (i : Nat) (clean : ∀ t ∈ c.atEnd i, t.isFault = false) :
    (c.atEnd i).foldlM Stage.after c.state.stage = some .between := by
  rw [atEnd, state_of_clean clean]
  dsimp only
  split <;> rfl

end Cursor

inductive Draft where
  | nothing
  | tag (parts : TagParts)
  | named (parts : TagParts) (name : Span)
  | valued (parts : TagParts) (name value : Span)

namespace Draft

def stage : Draft → Stage
  | .nothing => .between
  | .tag _ => .inTag
  | .named .. => .named
  | .valued .. => .valued

def tokens : Draft → List Token
  | .nothing => []
  | .tag parts => parts.tokens
  | .named parts name => parts.tokens ++ [.attributeName name]
  | .valued parts name value => parts.tokens ++ [.attributeName name, .attributeValue value]

private theorem exists_next (d : Draft) (t : Token) {next : Stage}
    (may : d.stage.after t = some next) :
    ∃ (phrases : List Phrase) (d' : Draft), d'.stage = next ∧
      d.tokens ++ [t] = Phrase.allTokens phrases ++ d'.tokens := by
  cases d <;> cases t <;> simp only [stage, Stage.after, Option.some.injEq, reduceCtorEq] at may <;>
    subst may
  case nothing.text span => exact ⟨[.leaf (.text span)], .nothing, rfl, rfl⟩
  case nothing.cdata span => exact ⟨[.leaf (.cdata span)], .nothing, rfl, rfl⟩
  case nothing.comment span => exact ⟨[.leaf (.comment span)], .nothing, rfl, rfl⟩
  case nothing.instruction span => exact ⟨[.leaf (.instruction span)], .nothing, rfl, rfl⟩
  case nothing.endName span => exact ⟨[.close span], .nothing, rfl, rfl⟩
  case nothing.startName span => exact ⟨[], .tag { name := span }, rfl, rfl⟩
  case tag.attributeName parts span => exact ⟨[], .named parts span, rfl, rfl⟩
  case tag.startEnd parts stop =>
    exact ⟨[.start parts stop], .nothing, rfl, by simp [tokens, Phrase.tokens]⟩
  case tag.emptyEnd parts stop =>
    exact ⟨[.empty parts stop], .nothing, rfl, by simp [tokens, Phrase.tokens]⟩
  case named.attributeValue parts name span =>
    exact ⟨[], .valued parts name span, rfl, by simp [tokens]⟩
  case named.attributeEnd parts name quote stop =>
    let last : AttributeParts := ⟨name, none, quote, stop⟩
    refine ⟨[], .tag { parts with attributes := parts.attributes ++ [last] }, rfl, ?_⟩
    simp [tokens, TagParts.tokens, AttributeParts.tokens, last]
  case valued.attributeEnd parts name value quote stop =>
    let last : AttributeParts := ⟨name, value, quote, stop⟩
    refine ⟨[], .tag { parts with attributes := parts.attributes ++ [last] }, rfl, ?_⟩
    simp [tokens, TagParts.tokens, AttributeParts.tokens, last]

/-- Reports that may follow on a draft complete phrases and leave another draft. -/
theorem exists_split (ts : List Token) (d : Draft) {stage : Stage}
    (leads : ts.foldlM Stage.after d.stage = some stage) :
    ∃ (phrases : List Phrase) (d' : Draft), d'.stage = stage ∧
      d.tokens ++ ts = Phrase.allTokens phrases ++ d'.tokens := by
  induction ts generalizing d with
  | nil => exact ⟨[], d, Option.some.inj leads, List.append_nil _⟩
  | cons t ts ih =>
    rw [List.foldlM_cons] at leads
    obtain ⟨next, may, rest⟩ := Option.bind_eq_some_iff.mp leads
    obtain ⟨now, d', rfl, split⟩ := d.exists_next t may
    obtain ⟨later, last, stage, split'⟩ := ih d' rest
    refine ⟨now ++ later, last, stage, ?_⟩
    rw [Phrase.allTokens_append, List.append_assoc, ← split', ← List.append_assoc, ← split,
      List.append_assoc, List.singleton_append]

theorem eq_nothing {d : Draft} (fresh : d.stage = .between) : d = .nothing := by
  cases d with
  | nothing => rfl
  | _ => contradiction

theorem exists_phrases (ts : List Token) (d : Draft)
    (leads : ts.foldlM Stage.after d.stage = some .between) :
    ∃ phrases, d.tokens ++ ts = Phrase.allTokens phrases := by
  obtain ⟨phrases, last, fresh, split⟩ := d.exists_split ts leads
  obtain rfl := eq_nothing fresh
  exact ⟨phrases, split.trans (List.append_nil _)⟩

end Draft

namespace Cursor

theorem leads_of_clean {c : Cursor} (fresh : c.state.stage = .between) (i : Nat) (bs : List UInt8)
    (clean : ∀ t ∈ (c.scan i bs).2 ++ (c.scan i bs).1.atEnd (i + bs.length), t.isFault = false) :
    ((c.scan i bs).2 ++ (c.scan i bs).1.atEnd (i + bs.length)).foldlM Stage.after .between =
      some .between := by
  simp only [List.mem_append] at clean
  have scanned := c.scan_leads i bs fun t reported => clean t (.inl reported)
  rw [fresh] at scanned
  rw [List.foldlM_append, scanned]
  exact (c.scan i bs).1.atEnd_leads (i + bs.length) fun t reported => clean t (.inr reported)

theorem exists_phrases {c : Cursor} (fresh : c.state.stage = .between) (i : Nat) (bs : List UInt8)
    (clean : ∀ t ∈ (c.scan i bs).2 ++ (c.scan i bs).1.atEnd (i + bs.length), t.isFault = false) :
    ∃ phrases, (c.scan i bs).2 ++ (c.scan i bs).1.atEnd (i + bs.length) =
      Phrase.allTokens phrases :=
  Draft.exists_phrases _ .nothing (leads_of_clean fresh i bs clean)

end Cursor

theorem exists_leads_of_clean {source : List UInt8}
    (clean : ∀ t ∈ tokens source, t.isFault = false) :
    ∃ ts, tokens source = ts ++ [.endOfSource] ∧
      ts.foldlM Stage.after .between = some .between := by
  rw [tokens_eq_scan, ← Nat.zero_add source.length] at clean ⊢
  exact ⟨_, rfl, Cursor.leads_of_clean rfl 0 source fun t reported =>
    clean t (List.mem_append_left _ reported)⟩

theorem exists_phrases_of_clean {source : List UInt8}
    (clean : ∀ t ∈ tokens source, t.isFault = false) :
    ∃ phrases, tokens source = Phrase.allTokens phrases ++ [.endOfSource] := by
  obtain ⟨ts, whole, leads⟩ := exists_leads_of_clean clean
  obtain ⟨phrases, split⟩ := Draft.exists_phrases ts .nothing leads
  exact ⟨phrases, by rw [whole, ← split]; rfl⟩

end Variability.Markup
