import Variability.Proofs.Markup.Tags

/-! Every document of the grammar loads as the project that it stands for. The
proof goes along the tree: below a heavy tag a part leaves the loader as it is,
and elsewhere it adds its items to the element that is open. -/
namespace Variability.Markup
open Text

def Loader.Calm (l : Loader) : Prop :=
  l.pendingTag = none ∧ l.pendingAttribute = none

theorem Loader.onStartEnd_dropped {l : Loader} (calm : l.Calm) {tag : PendingTag}
    (dropped : tag.dropped = true) (empty : Bool) :
    (l.inTag tag).onStartEnd empty = .ok { l with
      discarded := if l.isSkipping then l.discarded else l.discarded + 1
      skipped := if empty then l.skipped else tag.tag :: l.skipped } := by
  obtain ⟨opened, root, _, _, skipped, discarded⟩ := l
  obtain ⟨rfl, rfl⟩ := calm
  simp only [onStartEnd, inTag, dropped, if_true]
  rfl

private theorem Loader.onEndName_skipped {l : Loader} {outer : List String} {source : ByteArray}
    {span : Span} (skipped : l.skipped = slice source span.start span.stop :: outer) :
    l.onEndName source span = .ok { l with skipped := outer } := by
  simp [onEndName, skipped]

private theorem EndsName.startEnd : EndsName ">" := ⟨_, _, rfl, rfl⟩

private theorem EndsName.emptyEnd : EndsName "/>" := ⟨_, _, rfl, rfl⟩

/-- The three parts of an element: its start tag, its content up to the next
`<`, and the rest of its end tag. -/
theorem Inside.render_content {mode : Mode} {Foreign : Type} (foreign : Foreign → String)
    (start name : String) (content : Content mode Foreign) (gap : Spaces) :
    start ++ (Inside.content content gap).render foreign name =
      start ++ ">" ++ (content.render foreign ++ "<") ++ ("/" ++ (name ++ (gap ++ ">"))) := by
  have close : "</" = "<" ++ "/" := rfl
  rw [Inside.render, close]
  simp only [String.append_assoc]

theorem Run.skip {mode : Mode} (run : Run '<' mode) {l : Loader} (skipping : l.isSkipping = true) :
    Reads (run.raw ++ "<") .text l .beforeTagName l :=
  Reads.run (run.stop_not_mem (by decide)) fun _ _ _ => if_pos skipping

mutual
theorem Piece.skip : (piece : Piece .dropped Empty) → {l : Loader} → l.Calm → l.isSkipping = true →
    Reads (piece.render Empty.elim) .beforeTagName l .text l
  | .misc misc, l, _, _ => by
    rw [Piece.render]
    exact Reads.misc misc l
  | .cdata body, l, _, skipping => by
    rw [Piece.render, String.append_assoc]
    exact Reads.cdata body fun _ _ _ => if_pos skipping
  | .element start inside, l, calm, skipping => by
    have whole := inside.skip start calm (by simp [skipping]) (by simp [skipping])
    rw [if_pos skipping] at whole
    rw [Piece.render]
    exact whole

theorem Inside.skip : (inside : Inside .dropped Empty) → (start : StartTag .dropped) →
    {l : Loader} → l.Calm → (l.isSkipping || isHeavy start.name.text) = true →
    (l.root.isSome && l.opened.isEmpty && !l.isSkipping) = false →
    Reads (start.render ++ inside.render Empty.elim start.name.text) .beforeTagName l
      .text { l with discarded := if l.isSkipping then l.discarded else l.discarded + 1 }
  | .empty, start, l, calm, dropped, allowed => by
    rw [Inside.render]
    refine start.reads .emptyEnd allowed calm.2 (.inl dropped) fun offset => Reads.emptyEnd ?_
    exact Loader.onStartEnd_dropped calm dropped true
  | .content content gap, start, l, calm, dropped, allowed => by
    -- the tag is remembered until its end tag comes
    let discarded := if l.isSkipping then l.discarded else l.discarded + 1
    let inner : Loader := { l with discarded, skipped := start.name.text :: l.skipped }
    have opening : Reads (start.render ++ ">") .beforeTagName l .text inner :=
      start.reads .startEnd allowed calm.2 (.inl dropped) fun offset =>
        Reads.startEnd (Loader.onStartEnd_dropped calm dropped false)
    have below : Reads (content.render Empty.elim ++ "<") .text inner .beforeTagName inner :=
      content.skip calm rfl
    have closing : Reads ("/" ++ (start.name.text ++ (gap ++ ">"))) .beforeTagName inner
        .text { l with discarded } :=
      Reads.endTag start.name gap fun source span cut =>
        Loader.onEndName_skipped (l := inner) (by rw [cut])
    rw [Inside.render_content]
    exact (opening.append below).append closing

theorem Content.skip : (content : Content .dropped Empty) → {l : Loader} → l.Calm →
    l.isSkipping = true → Reads (content.render Empty.elim ++ "<") .text l .beforeTagName l
  | .last run, l, _, skipping => by
    rw [Content.render]
    exact run.skip skipping
  | .more run piece rest, l, calm, skipping => by
    rw [Content.render, String.append_assoc]
    exact ((run.skip skipping).append (piece.skip calm skipping)).append (rest.skip calm skipping)
end

def OpenElement.take (e : OpenElement) : Item → OpenElement
  | .text part =>
    if isBlankText part || !e.children.isEmpty then e else { e with text := e.text ++ part }
  | .child element => { e with children := element :: e.children }

theorem OpenElement.foldl_take (items : List Item) (e : OpenElement) :
    items.foldl take e = { e with
      text := if e.children.isEmpty then e.text ++ Item.leadingText items else e.text
      children := (items.filterMap Item.child?).reverse ++ e.children } := by
  induction items generalizing e with
  | nil => simp [Item.leadingText]
  | cons item items ih =>
    rw [List.foldl_cons, ih]
    cases item with
    | text part =>
      cases blank : isBlankText part <;> cases childless : e.children.isEmpty <;>
        simp [take, Item.leadingText, Item.child?, List.filterMap_cons, blank, childless,
          String.append_assoc]
    | child element => simp [take, Item.leadingText, Item.child?]

@[simp] theorem OpenElement.close_foldl_take (tag : String) (attributes : List (String × String))
    (items : List Item) :
    (items.foldl take { tag, attributes }).close = Item.assemble tag attributes items := by
  simp [foldl_take, close, Item.assemble]

section Kept
variable {parent : OpenElement} {outer : List OpenElement} {root : Option Element} {d : Nat}

theorem Loader.addText_opened (text : String) (offset : Nat) :
    addText { opened := parent :: outer, root, discarded := d } text offset =
      .ok { opened := parent.take (.text text) :: outer, root, discarded := d } := by
  cases blank : isBlankText text <;> cases childless : parent.children.isEmpty <;>
    simp [addText, OpenElement.take, blank, childless]

theorem Run.reads (run : Run '<' .kept) :
    Reads (run.raw ++ "<") .text { opened := parent :: outer, root, discarded := d }
      .beforeTagName { opened := parent.take (.text run.text) :: outer, root, discarded := d } := by
  have delimiter : '<' ∈ delimiters := by decide
  refine Reads.run (run.stop_not_mem delimiter) fun source span cut => ?_
  have decoded := Loader.decodeSpan_of_slice cut (run.decode_raw delimiter)
  change (do Loader.addText _ (← Loader.decodeSpan source span) span.start) = _
  rw [decoded]
  exact Loader.addText_opened run.text span.start

private theorem StartTag.onStartEnd (start : StartTag .kept) {opened : List OpenElement}
    (bound : opened.length < maxDepth) (offset : Nat) (empty : Bool) :
    (Loader.inTag { opened, root, discarded := d }
        (PendingTag.extend ⟨start.name.text, offset, [], isHeavy start.name.text⟩
          start.values)).onStartEnd empty =
      let element : OpenElement := { tag := start.name.text, attributes := start.values }
      .ok (if empty then .add { opened, root, discarded := d } element.close
        else { opened := element :: opened, root, discarded := d }) := by
  simp [Loader.onStartEnd, Loader.inTag, PendingTag.extend, start.light rfl,
    Nat.not_le_of_lt bound]

theorem Loader.onEndName_opened {opened : List OpenElement} {source : ByteArray} {span : Span}
    (matching : parent.tag = slice source span.start span.stop) :
    onEndName { opened := parent :: opened, root, discarded := d } source span =
      .ok (add { opened, root, discarded := d } parent.close) := by
  simp [onEndName, matching]

mutual
theorem Piece.reads : (piece : Piece .kept Heavy) →
    {parent : OpenElement} → {outer : List OpenElement} → {root : Option Element} → {d : Nat} →
    outer.length + 1 + piece.depth ≤ maxDepth →
    Reads (piece.render Heavy.render)
      .beforeTagName { opened := parent :: outer, root, discarded := d }
      .text { opened := piece.items.foldl .take parent :: outer, root,
              discarded := d + piece.discarded }
  | .misc misc, _, _, _, _, _ => by
    rw [Piece.render]
    exact Reads.misc misc _
  | .cdata body, _, _, _, _, _ => by
    rw [Piece.render, String.append_assoc]
    refine Reads.cdata body fun source span cut => ?_
    rw [Loader.onCdata, cut]
    exact Loader.addText_opened body span.start
  | .element start inside, parent, outer, root, d, bound => by
    rw [Piece.depth] at bound
    rw [Piece.render, Piece.items, Piece.discarded]
    exact inside.reads start (by simp) (by rw [List.length_cons]; omega)
  | .foreign heavy, parent, outer, root, d, _ => by
    rw [Piece.render, Heavy.render]
    exact heavy.inside.skip heavy.start ⟨rfl, rfl⟩ (by simp [heavy.heavy]) (by simp)

theorem Inside.reads : (inside : Inside .kept Heavy) → (start : StartTag .kept) →
    {opened : List OpenElement} → {root : Option Element} → {d : Nat} →
    (root.isSome && opened.isEmpty) = false → opened.length + 1 + inside.depth ≤ maxDepth →
    Reads (start.render ++ inside.render Heavy.render start.name.text)
      .beforeTagName { opened, root, discarded := d }
      .text (.add { opened, root, discarded := d + inside.discarded }
        (Item.assemble start.name.text start.values inside.items))
  | .empty, start, opened, root, d, allowed, bound => by
    rw [Inside.render, Inside.items, Inside.discarded]
    refine start.reads .emptyEnd (by simp [allowed]) rfl (.inr rfl) fun offset => Reads.emptyEnd ?_
    exact start.onStartEnd (by omega) offset true
  | .content content gap, start, opened, root, d, allowed, bound => by
    rw [Inside.depth] at bound
    -- the content goes to an element of its own, which the end tag hands on
    let fresh : OpenElement := { tag := start.name.text, attributes := start.values }
    have opening : Reads (start.render ++ ">") .beforeTagName { opened, root, discarded := d }
        .text { opened := fresh :: opened, root, discarded := d } :=
      start.reads .startEnd (by simp [allowed]) rfl (.inr rfl) fun offset =>
        Reads.startEnd (start.onStartEnd (by omega) offset false)
    have closing : Reads ("/" ++ (start.name.text ++ (gap ++ ">")))
        .beforeTagName { opened := content.items.foldl .take fresh :: opened, root,
                         discarded := d + content.discarded }
        .text (.add { opened, root, discarded := d + content.discarded }
          (Item.assemble start.name.text start.values content.items)) := by
      refine Reads.endTag start.name gap fun source span cut => ?_
      rw [← OpenElement.close_foldl_take]
      apply Loader.onEndName_opened
      rw [OpenElement.foldl_take, cut]
    rw [Inside.render_content, Inside.items, Inside.discarded]
    exact (opening.append (content.reads bound)).append closing

theorem Content.reads : (content : Content .kept Heavy) →
    {parent : OpenElement} → {outer : List OpenElement} → {root : Option Element} → {d : Nat} →
    outer.length + 1 + content.depth ≤ maxDepth →
    Reads (content.render Heavy.render ++ "<")
      .text { opened := parent :: outer, root, discarded := d }
      .beforeTagName { opened := content.items.foldl .take parent :: outer, root,
                       discarded := d + content.discarded }
  | .last run, _, _, _, _, _ => by
    rw [Content.render]
    exact run.reads
  | .more run piece rest, parent, outer, root, d, bound => by
    rw [Content.depth] at bound
    rw [Content.render, Content.items, Content.discarded, String.append_assoc, List.foldl_append,
      List.foldl_cons, ← Nat.add_assoc]
    exact (run.reads.append (piece.reads (by omega))).append (rest.reads (by omega))
end

end Kept

private theorem Blank.free (blank : Blank) : '<' ∉ blank.val.toList := by
  intro found
  have := List.all_eq_true.mp blank.property '<' found
  exact absurd this (by decide)

private theorem Loader.onText_blank (blank : Blank) (root : Option Element) (d : Nat)
    (source : ByteArray)
    (span : Span) (cut : slice source span.start span.stop = blank.val) :
    onText { root, discarded := d } source span = .ok { root, discarded := d } := by
  simp only [onText, isSkipping, cut, List.isEmpty_nil, Bool.not_true, Bool.false_eq_true, if_false,
    if_true]
  exact addText_blank blank.property _ _

theorem Blank.reads (blank : Blank) (root : Option Element) (d : Nat) :
    Reads (blank ++ "<") .text { root, discarded := d } .beforeTagName { root, discarded := d } :=
  Reads.run blank.free (Loader.onText_blank blank root d)

namespace Document

theorem reads_miscs (miscs : List (Blank × Misc)) (root : Option Element) (d : Nat) :
    Reads (renderMiscs miscs) .text { root, discarded := d } .text { root, discarded := d } := by
  induction miscs with
  | nil => exact Reads.nil _ _
  | cons first rest ih =>
    exact ((first.1.reads root d).append (Reads.misc first.2 _)).append ih

theorem reads_main (d : Document) :
    Reads (renderMiscs d.prolog ++ (d.lead ++ "<") ++
        (d.start.render ++ d.inside.render Heavy.render d.start.name.text) ++
        renderMiscs d.epilog) .text {}
      .text { root := some d.project.root, discarded := d.project.discarded } := by
  have bound : ([] : List OpenElement).length + 1 + d.inside.depth ≤ maxDepth := by
    have := d.bounded
    rw [maxDepth, List.length_nil]
    omega
  have root : Reads _ _ { root := none, discarded := 0 } _ _ := d.inside.reads d.start rfl bound
  rw [Nat.zero_add] at root
  have before := (reads_miscs d.prolog none 0).append (d.lead.reads none 0)
  exact (before.append root).append (reads_miscs d.epilog _ _)

end Document

private theorem Loader.foldlM_atEnd {source : ByteArray} {start stop : Nat} {l : Loader}
    (unchanged : l.onText source ⟨start, stop⟩ = .ok l) :
    (Cursor.atEnd ⟨.text, start⟩ stop ++ [Token.endOfSource]).foldlM (step isHeavy source) l =
      .ok l := by
  simp only [Cursor.atEnd]
  split
  · rw [List.singleton_append, List.foldlM_cons, step, unchanged]
    rfl
  · rfl

theorem load_of_reads {main : String} (trail : Blank) {root : Element} {d : Nat}
    (reads : Reads main .text {} .text { root := some root, discarded := d }) :
    load isHeavy (main ++ trail) = .ok ⟨root, d⟩ := by
  obtain ⟨mark, reports, scan, begins, loaded⟩ := reads "" trail 0 (fun _ => rfl)
  rw [String.empty_append] at begins loaded
  obtain rfl := begins rfl
  have free : 0x3C ∉ bytes trail := fun found => trail.free (mem_toList_of_mem_bytes (by decide) found)
  -- the last blanks are text that nothing follows, so the end of the source reports them
  have scanned : Cursor.scan {} 0 (bytes (main ++ trail)) = (⟨.text, main.utf8ByteSize⟩, reports) := by
    have text := Cursor.scan_text main.utf8ByteSize (0 + (bytes main).length) free
    rw [bytes_append, ← List.append_nil reports]
    exact Cursor.scan_append_of_eq scan text
  have cut := slice_between main trail ""
  rw [String.append_empty] at cut
  have blank := Loader.onText_blank trail (some root) d (main ++ trail.val).toByteArray ⟨_, _⟩ cut
  have folded : (tokens (bytes (main ++ trail))).foldlM
      (Loader.step isHeavy (main ++ trail.val).toByteArray) {} =
        .ok { root := some root, discarded := d } := by
    rw [tokens_eq_scan, scanned, List.append_assoc, List.foldlM_append, loaded, length_bytes]
    exact Loader.foldlM_atEnd blank
  rw [load]
  simp only [folded]
  rfl

@[simp] theorem dropMark_blank (blank : Blank) (rest : String) :
    dropMark (blank ++ ("<" ++ rest)) = blank ++ ("<" ++ rest) := by
  -- the source starts with a blank or with `<`, and neither is a byte order mark
  have keeps {c : Char} {cs : List Char} (split : (blank ++ ("<" ++ rest)).toList = c :: cs)
      (other : c.toNat ≠ 0xFEFF) : dropMark (blank ++ ("<" ++ rest)) = blank ++ ("<" ++ rest) := by
    simp [dropMark, split, other]
  cases shape : blank.val.toList with
  | nil => exact keeps (c := '<') (by simp [shape]; rfl) (by decide)
  | cons c cs =>
    refine keeps (c := c) (by simp [shape]; rfl) fun mark => ?_
    have := List.all_eq_true.mp blank.property c (by simp [shape])
    simp [isBlank, mark] at this

theorem Document.render_blank (d : Document) :
    ∃ (blank : Blank) (rest : String), d.render = blank ++ ("<" ++ rest) := by
  cases split : d.prolog with
  | nil =>
    simp only [render, split, renderMiscs, String.empty_append, String.append_assoc]
    exact ⟨d.lead, _, rfl⟩
  | cons first rest =>
    simp only [render, split, renderMiscs, String.append_assoc]
    exact ⟨first.1, _, rfl⟩

/-- Loading reads back every document of the grammar. -/
theorem loadText_render (d : Document) : loadText d.render = .ok d.project := by
  obtain ⟨blank, rest, starts⟩ := d.render_blank
  have kept : dropMark d.render = d.render := by
    rw [starts, dropMark_blank]
  rw [loadText, kept, ← load_of_reads d.trail d.reads_main, Document.render]
  simp only [String.append_assoc]

example : ∃ d : Document,
    d.render = "<!----->\n<a b='&#x3C;'>x<sound>&</sound>y<c/></a>" ∧
    d.project = ⟨⟨"a", [("b", "<")], "xy", [⟨"c", [], "", []⟩]⟩, 1⟩ := by
  let less : Spelled '\'' := ⟨'<', _, .hexadecimal (.inl rfl)
    (.shift (n := 3) (v := 12) (.digit ⟨by decide, .inl rfl⟩) ⟨by decide, .inr rfl⟩)⟩
  let b : Attribute .kept := { name := ⟨"b", rfl, by simp⟩, quote := .single, value := [less] }
  let c : StartTag .kept :=
    { name := ⟨"c", rfl, by simp [spaceChars]⟩, light := fun _ => rfl }
  let sound : StartTag .dropped :=
    { name := ⟨"sound", rfl, by simp [spaceChars]⟩, light := nofun }
  refine ⟨{
    prolog := [(.none, .comment ⟨"-", by decide⟩)]
    lead := ⟨"\n", rfl⟩
    start := {
      name := ⟨"a", rfl, by simp [spaceChars]⟩
      light := fun _ => rfl
      attributes := [(⟨" ", by simp [spaceChars]⟩, b)] }
    inside := .content
      (.more [⟨'x', _, .plain (by decide)⟩]
        (.foreign ⟨sound, rfl, .content (.last ⟨"&", by decide⟩) .none⟩)
        (.more [⟨'y', _, .plain (by decide)⟩] (.element c .empty) (.last []))) .none
    bounded := by decide }, ?_, rfl⟩
  decide +kernel

end Variability.Markup
