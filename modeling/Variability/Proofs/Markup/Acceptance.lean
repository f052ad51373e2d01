import Variability.Proofs.Markup.Building

/-! Which sources load, and what they load to. A source loads exactly when its
reports are those of a forest that may be loaded, and the project is what that
forest stands for. -/
namespace Variability.Markup
open Text

section Nesting
variable {heavy : String → Bool} {source : ByteArray} {l m : Loader}

private theorem Loader.step_fault {t : Token} (fault : t.isFault = true) :
    step heavy source l t ≠ .ok m := by
  cases t with
  | fault => exact nofun
  | _ => contradiction

theorem clean_of_run {reports : List Token}
    (run : reports.foldlM (Loader.step heavy source) l = .ok m) :
    ∀ t ∈ reports, t.isFault = false := by
  induction reports generalizing l with
  | nil => exact nofun
  | cons t reports ih =>
    rw [List.foldlM_cons, bind_eq_ok_iff] at run
    obtain ⟨next, now, later⟩ := run
    rw [List.forall_mem_cons]
    exact ⟨Bool.eq_false_iff.mpr fun fault => Loader.step_fault fault now, ih later⟩

def Loader.nesting (l : Loader) : Nat := l.skipped.length + l.opened.length

@[simp] theorem Loader.add_nesting (l : Loader) (e : Element) : (l.add e).nesting = l.nesting := by
  obtain ⟨opened, _⟩ := l
  cases opened <;> rfl

private theorem Loader.Calm.add (calm : l.Calm) (e : Element) : (l.add e).Calm := by
  obtain ⟨opened, _⟩ := l
  cases opened <;> exact calm

theorem Loader.Calm.cases (calm : l.Calm) :
    l.isSkipping = true ∨ ∃ opened root d, l = { opened, root, discarded := d } := by
  obtain ⟨opened, root, _, _, skipped, d⟩ := l
  obtain ⟨rfl, rfl⟩ := calm
  cases skipped with
  | nil => exact .inr ⟨opened, root, d, rfl⟩
  | cons => exact .inl rfl

theorem Loader.Calm.drops_cases (calm : l.Calm) (isHeavy : Bool) :
    (l.isSkipping || isHeavy) = true ∨
      isHeavy = false ∧ ∃ opened root d, l = { opened, root, discarded := d } := by
  cases isHeavy with
  | true => exact .inl (Bool.or_true _)
  | false =>
    rw [Bool.or_false]
    exact calm.cases.imp_right fun light => ⟨rfl, light⟩

private theorem Loader.addText_outside (root : Option Element) (d : Nat) (text : String)
    (offset : Nat) : addText { root, discarded := d } text offset =
      if isBlankText text = true then .ok { root, discarded := d }
      else .error ⟨.textOutsideRoot, offset⟩ := rfl

theorem outside_leaf_runs (leaf : Leaf) (root : Option Element) (d : Nat) :
    Runs heavy source [leaf.token] { root, discarded := d } (leaf.isBlank source = true)
      { root, discarded := d } := by
  have calm : ¬ Loader.isSkipping { root, discarded := d } := nofun
  cases leaf with
  | text span =>
    refine Runs.of_eq_ite ⟨.textOutsideRoot, span.start⟩ ?_
    rw [Leaf.token, Loader.step, Loader.onText, if_neg calm, if_pos List.isEmpty_nil,
      Loader.addText_outside, Leaf.isBlank, Span.raw]
  | cdata span =>
    refine Runs.of_eq_ite ⟨.textOutsideRoot, span.start⟩ ?_
    rw [Leaf.token, Loader.step, Loader.onCdata, if_neg calm, Loader.addText_outside,
      Leaf.isBlank, Span.raw]
  | comment span =>
    exact (Runs.of_eq_ok rfl).congr (by simp [Leaf.isBlank])
  | instruction span =>
    exact (Runs.of_eq_ok rfl).congr (by simp [Leaf.isBlank])

/-- A phrase opens and closes as many elements for the loader as it does by itself. -/
theorem Phrase.nest_of_run (p : Phrase) (calm : l.Calm)
    (run : p.tokens.foldlM (Loader.step heavy source) l = .ok m) :
    m.Calm ∧ p.nest l.nesting = some m.nesting := by
  cases p with
  | leaf leaf =>
    obtain skipping | ⟨opened, root, d, rfl⟩ := calm.cases
    · obtain ⟨_, rfl⟩ := (skipped_leaf_runs leaf skipping m).mp run
      exact ⟨calm, rfl⟩
    · cases opened with
      | nil =>
        obtain ⟨_, rfl⟩ := (outside_leaf_runs leaf root d m).mp run
        exact ⟨calm, rfl⟩
      | cons parent outer =>
        obtain ⟨_, rfl⟩ := (kept_leaf_runs leaf parent outer m).mp run
        exact ⟨calm, rfl⟩
  | start parts stop =>
    obtain drops | ⟨light, opened, root, d, rfl⟩ := calm.drops_cases (heavy (parts.tag source))
    · obtain ⟨_, rfl⟩ := (dropped_start_runs calm drops stop m).mp run
      exact ⟨calm, congrArg some (Nat.succ_add l.skipped.length l.opened.length).symm⟩
    · obtain ⟨_, rfl⟩ := (kept_tag_runs light false (fun _ => rfl) m).mp run
      exact ⟨calm, rfl⟩
  | empty parts stop =>
    obtain drops | ⟨light, opened, root, d, rfl⟩ := calm.drops_cases (heavy (parts.tag source))
    · obtain ⟨_, rfl⟩ := (dropped_empty_runs calm drops stop m).mp run
      exact ⟨calm, rfl⟩
    · obtain ⟨_, rfl⟩ := (kept_tag_runs light true (fun _ => rfl) m).mp run
      exact ⟨Loader.Calm.add calm _, congrArg some (Loader.add_nesting _ _).symm⟩
  | close name =>
    -- an end tag closes what is skipped first, and there must be something to close
    obtain ⟨opened, root, _, _, skipped, d⟩ := l
    obtain ⟨rfl, rfl⟩ := calm
    cases skipped with
    | cons tag skipped =>
      obtain ⟨_, rfl⟩ :=
        (skipped_close_runs ⟨opened, root, none, none, skipped, d⟩ tag name m).mp run
      exact ⟨⟨rfl, rfl⟩, by simp [Phrase.nest, Loader.nesting, Nat.succ_add]⟩
    | nil =>
      cases opened with
      | cons parent opened =>
        obtain ⟨_, rfl⟩ := (kept_close_runs parent name m).mp run
        refine ⟨Loader.Calm.add ⟨rfl, rfl⟩ _, ?_⟩
        rw [Loader.add_nesting]
        simp [Phrase.nest, Loader.nesting]
      | nil => contradiction

theorem Phrase.nest_of_runs {phrases : List Phrase} (calm : l.Calm)
    (run : (allTokens phrases).foldlM (Loader.step heavy source) l = .ok m) :
    m.Calm ∧ phrases.foldlM Phrase.nest l.nesting = some m.nesting := by
  induction phrases generalizing l with
  | nil =>
    obtain rfl : l = m := Except.ok.inj run
    exact ⟨calm, rfl⟩
  | cons p phrases ih =>
    rw [allTokens_cons, List.foldlM_append, bind_eq_ok_iff] at run
    obtain ⟨next, now, later⟩ := run
    obtain ⟨calm', nest⟩ := p.nest_of_run calm now
    rw [List.foldlM_cons, nest]
    exact ih calm' later

end Nesting

section TopLevel
variable {heavy : String → Bool} {source : ByteArray}

private theorem Node.exists_tokens {n : Node} {parts : TagParts} (tagged : n.parts? = some parts) :
    ∃ rest, n.tokens = parts.tokens ++ rest := by
  cases n with
  | leaf l => contradiction
  | empty own stop =>
    obtain rfl : own = parts := Option.some.inj tagged
    exact ⟨_, Node.tokens_empty own stop⟩
  | element own stop content close =>
    obtain rfl : own = parts := Option.some.inj tagged
    rw [Node.tokens_element, Phrase.tokens, List.append_assoc, List.append_assoc]
    exact ⟨_, rfl⟩

theorem refused_runs {l : Loader} (calm : l.Calm) (full : l.admits = false) (parts : TagParts)
    (rest : List Token) (m : Loader) : Runs heavy source (parts.tokens ++ rest) l False m := by
  intro k
  rw [List.foldlM_append, bind_eq_ok_iff]
  refine iff_of_false ?_ And.left
  rintro ⟨next, opening, _⟩
  have allowed := ((tag_runs calm parts rfl next).mp opening).1.1
  rw [full] at allowed
  contradiction

private theorem Node.refused_runs {n : Node} {parts : TagParts} (tagged : n.parts? = some parts)
    {l : Loader} (calm : l.Calm) (full : l.admits = false) (m : Loader) :
    Runs heavy source n.tokens l False m := by
  obtain ⟨rest, split⟩ := Node.exists_tokens tagged
  rw [split]
  exact Markup.refused_runs calm full parts rest m

theorem Forest.after_runs (nodes : List Node) (root : Element) (d : Nat) :
    Runs heavy source (Forest.tokens nodes) { root := some root, discarded := d }
      (∀ n ∈ nodes, n.isElement = false ∧ n.isBlank source = true)
      { root := some root, discarded := d } := by
  induction nodes with
  | nil => exact (Runs.nil _).congr (by simp)
  | cons n rest ih =>
    rw [Forest.tokens_cons]
    have first : Runs heavy source n.tokens { root := some root, discarded := d }
        (n.isElement = false ∧ n.isBlank source = true) { root := some root, discarded := d } := by
      cases n with
      | leaf l => exact (outside_leaf_runs l (some root) d).congr (and_iff_right rfl).symm
      | empty parts stop =>
        exact (Node.refused_runs rfl ⟨rfl, rfl⟩ rfl _).congr (by simp [Node.isElement, Node.parts?])
      | element parts stop content close =>
        exact (Node.refused_runs rfl ⟨rfl, rfl⟩ rfl _).congr (by simp [Node.isElement, Node.parts?])
    exact (first.append fun _ => ih).congr (by rw [List.forall_mem_cons])

theorem Node.root_runs {n : Node} {parts : TagParts} (tagged : n.parts? = some parts)
    (light : heavy (parts.tag source) = false) (d : Nat) :
    ∃ e, n.items heavy source = [.child e] ∧
      Runs heavy source n.tokens { discarded := d } (n.Fits heavy source 0)
        { root := some e, discarded := d + n.discarded heavy source } := by
  refine ⟨Item.assemble (parts.tag source) (parts.values source)
    (Forest.items heavy source n.content), ?_, ?_⟩
  · rw [Node.items_of_tagged heavy source tagged, light, if_neg Bool.false_ne_true]
  · exact (Node.light_runs tagged light (Forest.kept_runs n.content)).congr (and_iff_right rfl)

@[simp] theorem Node.isKept_iff (n : Node) :
    n.isKept heavy source = true ↔
      ∃ parts, n.parts? = some parts ∧ heavy (parts.tag source) = false := by
  simp [Node.isKept, Option.any_eq_true]

theorem Node.ahead_runs {n : Node} (out : n.isKept heavy source = false) (d : Nat) :
    Runs heavy source n.tokens { discarded := d }
      (n.matched source = true ∧ n.isBlank source = true)
      { discarded := d + n.discarded heavy source } := by
  have dropped {parts : TagParts} (tagged : n.parts? = some parts) :
      Runs heavy source n.tokens { discarded := d } (n.matched source = true)
        { discarded := d + n.discarded heavy source } := by
    have isHeavy : heavy (parts.tag source) = true := by simpa [isKept, tagged] using out
    rw [discarded_of_tagged heavy source tagged, if_pos isHeavy]
    exact (dropped_runs tagged ⟨rfl, rfl⟩ (by rw [isHeavy, Bool.or_true])).congr (and_iff_right rfl)
  cases n with
  | leaf l => exact (outside_leaf_runs l none d).congr (by simp [Node.matched, Node.isBlank])
  | empty parts stop => exact (dropped rfl).congr (by simp [Node.isBlank])
  | element parts stop content close => exact (dropped rfl).congr (by simp [Node.isBlank])

def Loads (heavy : String → Bool) (source : ByteArray) (reports : List Token) (l : Loader)
    (p : Project) : Prop :=
  ∃ m, reports.foldlM (Loader.step heavy source) l = .ok m ∧ m.finish = .ok p

theorem Runs.loads_append {ts us : List Token} {l m : Loader} {fine : Prop}
    (h : Runs heavy source ts l fine m) (p : Project) :
    Loads heavy source (ts ++ us) l p ↔ fine ∧ Loads heavy source us m p := by
  unfold Loads
  simp only [List.foldlM_append, bind_eq_ok_iff]
  constructor
  · rintro ⟨k, ⟨next, now, later⟩, finish⟩
    obtain ⟨holds, rfl⟩ := (h next).mp now
    exact ⟨holds, k, later, finish⟩
  · rintro ⟨holds, k, later, finish⟩
    exact ⟨k, ⟨m, (h m).mpr ⟨holds, rfl⟩, later⟩, finish⟩

@[simp]
theorem loads_nil_iff (l : Loader) (p : Project) : Loads heavy source [] l p ↔ l.finish = .ok p :=
  ⟨fun ⟨_, same, finish⟩ => Except.ok.inj same ▸ finish, fun finish => ⟨l, rfl, finish⟩⟩

theorem Runs.loads_iff {ts : List Token} {l m : Loader} {fine : Prop}
    (h : Runs heavy source ts l fine m) (p : Project) :
    Loads heavy source ts l p ↔ fine ∧ m.finish = .ok p := by
  rw [← loads_nil_iff, ← h.loads_append, List.append_nil]

private theorem Forest.matched_of_leaves {nodes : List Node}
    (leaves : ∀ n ∈ nodes, n.isElement = false) : Forest.matched source nodes = true := by
  induction nodes with
  | nil => rfl
  | cons n rest ih =>
    rw [List.forall_mem_cons] at leaves
    cases n with
    | leaf l => rw [Forest.matched, ih leaves.2, Node.matched, Bool.and_true]
    | empty | element => exact absurd leaves.1 nofun

theorem Forest.discarded_of_leaves {nodes : List Node}
    (leaves : ∀ n ∈ nodes, n.isElement = false) : Forest.discarded heavy source nodes = 0 := by
  induction nodes with
  | nil => rfl
  | cons n rest ih =>
    rw [List.forall_mem_cons] at leaves
    cases n with
    | leaf l => rw [Forest.discarded, ih leaves.2, Node.discarded]
    | empty | element => exact absurd leaves.1 nofun

private theorem accepted_nil_iff (root : Node) (after : List Node) :
    Accepted heavy source [] root after ↔
      root.isKept heavy source = true ∧ root.Fits heavy source 0 ∧
        ∀ n ∈ after, n.isElement = false ∧ n.isBlank source = true := by
  constructor
  · rintro ⟨matched, _, kept, leaves, blank, decodes, shallow⟩
    rw [List.nil_append, Forest.matched, Bool.and_eq_true] at matched
    exact ⟨kept, ⟨matched.1, decodes, by rwa [Nat.zero_add]⟩, fun n hn => ⟨leaves n hn, blank n hn⟩⟩
  · rintro ⟨kept, ⟨matched, decodes, shallow⟩, rest⟩
    have leaves : ∀ n ∈ after, n.isElement = false := fun n hn => (rest n hn).1
    refine ⟨?_, nofun, kept, leaves, fun n hn => (rest n hn).2, decodes, ?_⟩
    · rw [List.nil_append, Forest.matched, matched, Forest.matched_of_leaves leaves, Bool.and_true]
    · rwa [Nat.zero_add] at shallow

private theorem accepted_cons_iff (n : Node) (before : List Node) (root : Node)
    (after : List Node) :
    Accepted heavy source (n :: before) root after ↔
      (n.isKept heavy source = false ∧ n.matched source = true ∧ n.isBlank source = true) ∧
        Accepted heavy source before root after := by
  constructor
  · rintro ⟨matched, out, kept, leaves, blank, decodes, shallow⟩
    rw [List.cons_append, Forest.matched, Bool.and_eq_true] at matched
    rw [List.cons_append, List.forall_mem_cons] at blank
    rw [List.forall_mem_cons] at out
    exact ⟨⟨out.1, matched.1, blank.1⟩, matched.2, out.2, kept, leaves, blank.2, decodes, shallow⟩
  · rintro ⟨⟨out, matched, blank⟩, rest⟩
    refine ⟨?_, ?_, rest.keptRoot, rest.noneAfter, ?_, rest.decodes, rest.shallow⟩
    · rw [List.cons_append, Forest.matched, matched, rest.matched, Bool.and_true]
    · exact List.forall_mem_cons.mpr ⟨out, rest.heavyBefore⟩
    · exact List.forall_mem_cons.mpr ⟨blank, rest.blankOutside⟩

/-- The forest may be loaded, and with `d` elements dropped ahead of it, it stands
for the project. -/
def Forest.Yields (heavy : String → Bool) (source : ByteArray) (nodes : List Node) (d : Nat)
    (p : Project) : Prop :=
  ∃ before root after, nodes = before ++ root :: after ∧
    Accepted heavy source before root after ∧ root.items heavy source = [.child p.root] ∧
    d + Forest.discarded heavy source nodes = p.discarded

private theorem Forest.yields_cons_of_out {n : Node} (out : n.isKept heavy source = false)
    (rest : List Node) (d : Nat) (p : Project) :
    Forest.Yields heavy source (n :: rest) d p ↔
      (n.matched source = true ∧ n.isBlank source = true) ∧
        Forest.Yields heavy source rest (d + n.discarded heavy source) p := by
  unfold Forest.Yields
  rw [Forest.discarded, ← Nat.add_assoc]
  constructor
  · rintro ⟨before, root, after, split, accepted, yields⟩
    cases before with
    | nil =>
      obtain ⟨rfl, rfl⟩ := List.cons.inj split
      rw [accepted.keptRoot] at out
      contradiction
    | cons first before =>
      obtain ⟨rfl, rfl⟩ := List.cons.inj split
      obtain ⟨⟨_, fine⟩, accepted⟩ := (accepted_cons_iff n before root after).mp accepted
      exact ⟨fine, before, root, after, rfl, accepted, yields⟩
  · rintro ⟨⟨matched, blank⟩, before, root, after, rfl, accepted, yields⟩
    have accepted := (accepted_cons_iff n before root after).mpr ⟨⟨out, matched, blank⟩, accepted⟩
    exact ⟨n :: before, root, after, rfl, accepted, yields⟩

private theorem Forest.yields_cons_of_kept {n : Node} (kept : n.isKept heavy source = true)
    {e : Element}
    (items : n.items heavy source = [.child e]) (rest : List Node) (d : Nat) (p : Project) :
    Forest.Yields heavy source (n :: rest) d p ↔
      n.Fits heavy source 0 ∧ (∀ m ∈ rest, m.isElement = false ∧ m.isBlank source = true) ∧
        ⟨e, d + n.discarded heavy source⟩ = p := by
  constructor
  · rintro ⟨before, root, after, split, accepted, items', count⟩
    cases before with
    | nil =>
      obtain ⟨rfl, rfl⟩ := List.cons.inj split
      obtain ⟨_, fits, leaves⟩ := (accepted_nil_iff n rest).mp accepted
      obtain rfl : e = p.root := by simpa using items.symm.trans items'
      rw [Forest.discarded, Forest.discarded_of_leaves accepted.noneAfter, Nat.add_zero] at count
      exact ⟨fits, leaves, by rw [count]⟩
    | cons first before =>
      obtain ⟨rfl, rfl⟩ := List.cons.inj split
      rw [((accepted_cons_iff n before root after).mp accepted).1.1] at kept
      contradiction
  · rintro ⟨fits, leaves, rfl⟩
    have accepted := (accepted_nil_iff n rest).mpr ⟨kept, fits, leaves⟩
    refine ⟨[], n, rest, rfl, accepted, items, ?_⟩
    rw [Forest.discarded, Forest.discarded_of_leaves accepted.noneAfter, Nat.add_zero]

private theorem Loader.finish_root (e : Element) (d : Nat) :
    finish { root := some e, discarded := d } = .ok ⟨e, d⟩ := rfl

theorem Forest.loads_iff (nodes : List Node) (d : Nat) (p : Project) :
    Loads heavy source (Forest.tokens nodes) { discarded := d } p ↔
      Forest.Yields heavy source nodes d p := by
  induction nodes generalizing d with
  | nil =>
    rw [Forest.tokens_nil, loads_nil_iff]
    exact iff_of_false nofun (by simp [Forest.Yields])
  | cons n rest ih =>
    rw [Forest.tokens_cons]
    cases kept : n.isKept heavy source with
    | false =>
      rw [(Node.ahead_runs kept d).loads_append, ih, Forest.yields_cons_of_out kept]
    | true =>
      -- the first node that is kept is the root, and the rest comes after it
      obtain ⟨parts, tagged, light⟩ := n.isKept_iff.mp kept
      obtain ⟨e, items, runs⟩ := Node.root_runs tagged light d
      rw [runs.loads_append, (Forest.after_runs rest e _).loads_iff, Loader.finish_root,
        Except.ok.injEq, Forest.yields_cons_of_kept kept items]

@[simp] theorem loads_endOfSource_iff (reports : List Token) (l : Loader) (p : Project) :
    Loads heavy source (reports ++ [.endOfSource]) l p ↔ Loads heavy source reports l p := by
  have last (m : Loader) : Runs heavy source [.endOfSource] m True m := Runs.of_eq_ok rfl
  unfold Loads
  simp only [List.foldlM_append, bind_eq_ok_iff]
  constructor
  · rintro ⟨k, ⟨m, run, ended⟩, finish⟩
    obtain ⟨_, rfl⟩ := (last m k).mp ended
    exact ⟨k, run, finish⟩
  · rintro ⟨m, run, finish⟩
    exact ⟨m, ⟨m, run, (last m m).mpr ⟨trivial, rfl⟩⟩, finish⟩

private theorem Loader.nesting_of_finish {l : Loader} {p : Project} (finish : l.finish = .ok p) :
    l.nesting = 0 := by
  obtain ⟨opened, root, _, _, skipped, d⟩ := l
  cases skipped <;> cases opened <;> first | rfl | contradiction

theorem exists_forest_of_loads {bytes : List UInt8} {p : Project}
    (loads : Loads heavy source (tokens bytes) {} p) :
    ∃ nodes, tokens bytes = Forest.tokens nodes ++ [.endOfSource] := by
  obtain ⟨phrases, split⟩ := exists_phrases_of_clean (clean_of_run loads.choose_spec.1)
  rw [split, loads_endOfSource_iff] at loads
  obtain ⟨m, run, finish⟩ := loads
  have balanced := (Phrase.nest_of_runs ⟨rfl, rfl⟩ run).2
  rw [Loader.nesting_of_finish finish] at balanced
  obtain ⟨nodes, rfl⟩ := exists_forest balanced
  exact ⟨nodes, split⟩

end TopLevel

theorem load_eq_ok_iff_loads (heavy : String → Bool) (source : String) (p : Project) :
    load heavy source = .ok p ↔ Loads heavy source.toByteArray (tokens (bytes source)) {} p := by
  unfold load Loads
  dsimp only
  cases (tokens (bytes source)).foldlM (Loader.step heavy source.toByteArray) {} with
  | error failure => simp
  | ok m => cases finish : m.finish <;> simp [Except.mapError, finish]

/-- The source is reported as a forest that may be loaded, with `root` for the
element that is kept. -/
structure Parse (heavy : String → Bool) (source : String) (before : List Node) (root : Node)
    (after : List Node) : Prop extends Accepted heavy source.toByteArray before root after where
  clean : ∀ t ∈ tokens (bytes source), t.isFault = false
  reports : tokens (bytes source) = Forest.tokens (before ++ root :: after) ++ [.endOfSource]

theorem load_eq_ok_iff (heavy : String → Bool) (source : String) (p : Project) :
    load heavy source = .ok p ↔ ∃ before root after, Parse heavy source before root after ∧
      root.items heavy source.toByteArray = [.child p.root] ∧
      Forest.discarded heavy source.toByteArray (before ++ root :: after) = p.discarded := by
  rw [load_eq_ok_iff_loads]
  constructor
  · intro loads
    have clean := clean_of_run loads.choose_spec.1
    obtain ⟨nodes, reports⟩ := exists_forest_of_loads loads
    rw [reports, loads_endOfSource_iff, Forest.loads_iff] at loads
    obtain ⟨before, root, after, rfl, accepted, items, count⟩ := loads
    rw [Nat.zero_add] at count
    exact ⟨before, root, after, ⟨accepted, clean, reports⟩, items, count⟩
  · rintro ⟨before, root, after, parse, items, count⟩
    rw [parse.reports, loads_endOfSource_iff, Forest.loads_iff]
    exact ⟨before, root, after, rfl, parse.toAccepted, items, by rw [Nat.zero_add, count]⟩

theorem Parse.exists_load {heavy : String → Bool} {source : String} {before after : List Node}
    {root : Node} (parse : Parse heavy source before root after) :
    ∃ p, load heavy source = .ok p := by
  obtain ⟨parts, tagged, light⟩ := root.isKept_iff.mp parse.keptRoot
  obtain ⟨e, items, _⟩ := Node.root_runs tagged light 0
  exact ⟨⟨e, _⟩, (load_eq_ok_iff heavy source _).mpr ⟨before, root, after, parse, items, rfl⟩⟩

/-- Loading is a plain recursive reading of the reports. The source loads exactly
when they are those of a forest that may be loaded; then the project is what is
left of the forest without its heavy elements, and else there is an error. -/
theorem loadText_eq_ok_iff (source : String) :
    (∀ p, loadText source = .ok p ↔
      ∃ before root after, Parse isHeavy (dropMark source) before root after ∧
        root.items isHeavy (dropMark source).toByteArray = [.child p.root] ∧
        Forest.discarded isHeavy (dropMark source).toByteArray (before ++ root :: after) =
          p.discarded) ∧
    ((∃ e, loadText source = .error e) ↔
      ¬ ∃ before root after, Parse isHeavy (dropMark source) before root after) := by
  refine ⟨load_eq_ok_iff isHeavy (dropMark source), ?_⟩
  constructor
  · rintro ⟨e, failed⟩ ⟨before, root, after, parse⟩
    obtain ⟨p, loaded⟩ := parse.exists_load
    rw [loadText, loaded] at failed
    contradiction
  · intro unparsed
    cases loaded : loadText source with
    | error e => exact ⟨e, rfl⟩
    | ok p =>
      obtain ⟨before, root, after, parse, _⟩ := (load_eq_ok_iff isHeavy _ p).mp loaded
      exact absurd ⟨before, root, after, parse⟩ unparsed

end Variability.Markup
