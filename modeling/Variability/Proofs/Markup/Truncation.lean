import Variability.Proofs.Markup.Continuation

/-! A source that loads can be continued only by what adds nothing. The loader makes
the same of its reports with more bytes after them; once they make a project, every
further element is refused. -/
namespace Variability.Markup
open Text

section Settled
variable {heavy : String → Bool} {source : ByteArray} {l m : Loader} {p : Project}

def Loader.settled (p : Project) : Loader := { root := some p.root, discarded := p.discarded }

private theorem Loader.Calm.eq_settled (calm : l.Calm) (finish : l.finish = .ok p) :
    l = .settled p := by
  obtain ⟨opened, root, _, _, skipped, d⟩ := l
  obtain ⟨rfl, rfl⟩ := calm
  cases skipped <;> cases opened <;> cases root <;>
    first | contradiction | (obtain rfl := Except.ok.inj finish; rfl)

private theorem Loader.Calm.eq_settled_of_leaf (calm : l.Calm) (leaf : Leaf)
    (run : [leaf.token].foldlM (Loader.step heavy source) l = .ok m) (finish : m.finish = .ok p) :
    l = .settled p := by
  obtain skipping | ⟨opened, root, d, rfl⟩ := calm.cases
  · obtain ⟨_, rfl⟩ := (skipped_leaf_runs leaf skipping m).mp run
    exact calm.eq_settled finish
  · cases opened with
    | nil =>
      obtain ⟨_, rfl⟩ := (outside_leaf_runs leaf root d m).mp run
      exact calm.eq_settled finish
    | cons parent outer =>
      obtain ⟨_, rfl⟩ := (kept_leaf_runs leaf parent outer m).mp run
      contradiction

theorem Phrase.eq_settled_of_run (phrase : Phrase)
    (run : phrase.tokens.foldlM (Loader.step heavy source) (.settled p) = .ok m) :
    m = .settled p := by
  cases phrase with
  | leaf leaf => exact ((outside_leaf_runs leaf _ _ m).mp run).2
  | start parts stop | empty parts stop =>
    exact ((refused_runs ⟨rfl, rfl⟩ rfl parts _ m m).mp run).1.elim
  | close name => contradiction

theorem Phrase.eq_settled_of_runs {phrases : List Phrase}
    (run : (allTokens phrases).foldlM (Loader.step heavy source) (.settled p) = .ok m) :
    m = .settled p := by
  induction phrases with
  | nil => exact (Except.ok.inj run).symm
  | cons phrase phrases ih =>
    rw [allTokens_cons, List.foldlM_append, bind_eq_ok_iff] at run
    obtain ⟨next, now, later⟩ := run
    obtain rfl := phrase.eq_settled_of_run now
    exact ih later

end Settled

/-- A source that loads is reported in whole phrases, which make the project;
whatever comes after them is outside of the root. -/
theorem exists_settled_of_load {heavy : String → Bool} {source : String} {p : Project}
    (loads : load heavy source = .ok p) :
    (Cursor.scan {} 0 (bytes source)).1.state = .text ∧
      ∃ phrases, (Cursor.scan {} 0 (bytes source)).2 = Phrase.allTokens phrases ∧
        (Phrase.allTokens phrases).foldlM (Loader.step heavy source.toByteArray) {} =
          .ok (.settled p) := by
  rw [load_eq_ok_iff_loads, tokens_eq_scan, loads_endOfSource_iff] at loads
  obtain ⟨m, run, finish⟩ := loads
  have clean := clean_of_run run
  simp only [List.mem_append] at clean
  have state := Cursor.state_of_clean fun t reported => clean t (.inr reported)
  have leads := Cursor.scan_leads {} 0 (bytes source) fun t reported => clean t (.inl reported)
  rw [state] at leads
  obtain ⟨phrases, split⟩ := Draft.exists_phrases _ .nothing leads
  change (Cursor.scan {} 0 (bytes source)).2 = _ at split
  refine ⟨state, phrases, split, ?_⟩
  rw [List.foldlM_append, bind_eq_ok_iff, split] at run
  obtain ⟨l, before, last⟩ := run
  have calm : l.Calm := (Phrase.nest_of_runs ⟨rfl, rfl⟩ before).1
  rw [before]
  apply congrArg Except.ok
  -- all that can be left at the end of the source is a text
  rw [Cursor.atEnd, state] at last
  dsimp only at last
  split at last
  · exact calm.eq_settled_of_leaf (.text _) last finish
  · obtain rfl := Except.ok.inj last
    exact calm.eq_settled finish

theorem load_append {heavy : String → Bool} {source more : String} {p q : Project}
    (loads : load heavy source = .ok p) (loads' : load heavy (source ++ more) = .ok q) : p = q := by
  obtain ⟨state, phrases, split, run⟩ := exists_settled_of_load loads
  have fresh : (Cursor.scan {} 0 (bytes source)).1.state.stage = .between := by rw [state]; rfl
  have alike := scan_alike heavy source more
  rw [split, run] at alike
  rw [load_eq_ok_iff_loads, tokens_eq_scan, loads_endOfSource_iff, bytes_append,
    Cursor.scan_append, List.append_assoc, List.length_append, Nat.zero_add, split] at loads'
  obtain ⟨m, run', finish⟩ := loads'
  -- those on the bytes after it begin between two phrases, where nothing can be added
  obtain ⟨rest, split'⟩ := Cursor.exists_phrases fresh (bytes source).length (bytes more)
    fun t reported => clean_of_run run' t (List.mem_append_right _ reported)
  rw [List.foldlM_append, bind_eq_ok_iff, alike, split'] at run'
  obtain ⟨next, now, later⟩ := run'
  obtain rfl := Except.ok.inj now
  obtain rfl := Phrase.eq_settled_of_runs later
  exact Except.ok.inj finish

/-- A source that is a part of another one, cut off at some place, does not load
as another project. -/
theorem loadText_of_truncated (source more : String) (p q : Project)
    (part : loadText source = .ok p) (whole : loadText (source ++ more) = .ok q) : p = q := by
  have nonempty : source ≠ "" := by
    rintro rfl
    contradiction
  rw [loadText, dropMark_append more nonempty] at whole
  exact load_append part whole

theorem loadText_of_truncated_comment :
    ∃ p q, loadText "<a>b<sound/></a>" = .ok p ∧
      loadText ("<a>b<sound/></a>" ++ "\n<!--c-->") = .ok q ∧ p = q :=
  ⟨_, _, rfl, rfl, loadText_of_truncated "<a>b<sound/></a>" "\n<!--c-->" _ _ rfl rfl⟩

end Variability.Markup
