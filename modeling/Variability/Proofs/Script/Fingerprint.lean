import Mathlib.Data.List.Infix
import Mathlib.Logic.Relation
import Variability.Proofs.Element.Exchange
import Variability.Proofs.Element.Removal
import Variability.Proofs.Hash.Parts
import Variability.Script.Fingerprint

/-! What the fingerprint of a script depends on: the operations that are written in it, in
document order. Whatever leaves these alone leaves the fingerprint alone, so a script can
be changed in its texts, in its other attributes, and wherever it has no blocks. -/
namespace Variability

namespace Element

def operation? (e : Element) : Option String :=
  if e.isBlockLike then (e.attr? "s").filter (· != "") else none

mutual
/-- The operations of a tree, that of an element ahead of those of its children. -/
def written : Element → List String
  | ⟨tag, attributes, text, children⟩ =>
    (operation? ⟨tag, attributes, text, children⟩).toList ++ allWritten children

def allWritten : List Element → List String
  | [] => []
  | e :: rest => e.written ++ allWritten rest
end

end Element

private theorem operations_eq_answers : operations = Element.answers Element.operation? := by
  funext e
  exact List.filterMap_filter

theorem operations_eq (e : Element) :
    operations e = e.operation?.toList ++ e.children.flatMap operations := by
  rw [operations_eq_answers, Element.answers_eq]

mutual
theorem operations_eq_written : (e : Element) → operations e = e.written
  | ⟨tag, attributes, text, children⟩ => by
    rw [operations_eq, Element.written, flatMap_operations children]

theorem flatMap_operations : (es : List Element) → es.flatMap operations = Element.allWritten es
  | [] => rfl
  | e :: rest => by
    rw [List.flatMap_cons, operations_eq_written e, flatMap_operations rest, Element.allWritten]
end

namespace Element

def Blockless (e : Element) : Prop := ∀ node, e.Holds node → node.isBlockLike = false

/-- A change of one element that keeps to what no operation is written in. -/
inductive Retouch : Element → Element → Prop
  | text (e : Element) (text : String) : Retouch e { e with text }
  /-- The operations of a block are in the attributes named `s`. -/
  | attributes (e : Element) (attributes : List (String × String))
      (kept : e.isBlockLike = true →
        attributes.filter (·.1 == "s") = e.attributes.filter (·.1 == "s")) :
    Retouch e { e with attributes }
  /-- Children without blocks are taken out, put in or changed. -/
  | children (e : Element) {before old new after : List Element}
      (split : e.children = before ++ old ++ after) (gone : ∀ child ∈ old, child.Blockless)
      (come : ∀ child ∈ new, child.Blockless) :
    Retouch e { e with children := before ++ new ++ after }
  | whole {e f : Element} (gone : e.Blockless) (come : f.Blockless) : Retouch e f

def Retouched (tree other : Element) : Prop := ∃ e f, Retouch e f ∧ Swap e f tree other

@[simp] theorem lookup_filter_name (attributes : List (String × String)) (name : String) :
    (attributes.filter (·.1 == name)).lookup name = attributes.lookup name := by
  induction attributes with
  | nil => rfl
  | cons entry rest ih =>
    obtain ⟨key, value⟩ := entry
    by_cases same : name = key
    · subst same
      simp
    · have other : (name == key) = false := beq_false_of_ne same
      simpa [List.lookup_cons, other, Ne.symm same] using ih

private theorem attr?_congr {e f : Element} {name : String}
    (same : f.attributes.filter (·.1 == name) = e.attributes.filter (·.1 == name)) :
    f.attr? name = e.attr? name := by
  rw [attr?, attr?, ← lookup_filter_name, same, lookup_filter_name]

end Element

theorem operations_of_blockless {e : Element} (blockless : e.Blockless) : operations e = [] := by
  have kept : e.descendants.filter Element.isBlockLike = [] := by
    rw [List.filter_eq_nil_iff]
    intro node listed
    simp [blockless node ((Element.mem_descendants_iff e node).mp listed)]
  rw [operations, kept]
  rfl

theorem flatMap_operations_of_blockless {es : List Element} (blockless : ∀ e ∈ es, e.Blockless) :
    es.flatMap operations = [] := by
  rw [List.flatMap_eq_nil_iff]
  intro e listed
  exact operations_of_blockless (blockless e listed)

theorem operations_of_retouch {e f : Element} (edit : e.Retouch f) :
    operations f = operations e := by
  cases edit with
  | text =>
    rw [operations_eq, operations_eq e]
    rfl
  | attributes attributes kept =>
    have same : Element.operation? { e with attributes } = e.operation? := by
      by_cases block : e.isBlockLike = true
      · rw [Element.operation?, Element.operation?, Element.attr?_congr (kept block)]
        rfl
      · rw [Element.operation?, Element.operation?, if_neg block]
        exact if_neg block
    rw [operations_eq, operations_eq e, same]
  | children split gone come =>
    rw [operations_eq, operations_eq e, split, List.flatMap_append, List.flatMap_append,
      List.flatMap_append, List.flatMap_append, flatMap_operations_of_blockless gone,
      flatMap_operations_of_blockless come]
    rfl
  | whole gone come => rw [operations_of_blockless gone, operations_of_blockless come]

private theorem operations_of_swap {e f tree other : Element} (swap : Element.Swap e f tree other)
    (same : operations f = operations e) : operations other = operations tree := by
  induction swap with
  | here => exact same
  | @inside tag attributes text before after c d _ ih =>
    rw [operations_eq, operations_eq ⟨tag, attributes, text, before ++ c :: after⟩]
    dsimp only
    rw [List.flatMap_append, List.flatMap_append, List.flatMap_cons, List.flatMap_cons, ih]
    rfl

theorem operations_of_retouched {tree other : Element}
    (edits : Relation.ReflTransGen Element.Retouched tree other) :
    operations other = operations tree := by
  induction edits with
  | refl => rfl
  | tail _ edit ih =>
    obtain ⟨e, f, retouch, swap⟩ := edit
    rw [operations_of_swap swap (operations_of_retouch retouch), ih]

private theorem scanl_eq_map_inits {α β : Type} (step : β → α → β) (start : β) (list : List α) :
    list.scanl step start = list.inits.map (List.foldl step start) := by
  induction list generalizing start with
  | nil => rfl
  | cons a rest ih =>
    rw [List.scanl_cons, ih, List.inits_cons, List.map_cons, List.map_map]
    rfl

/-- A fingerprint is the hash of the operations as one text, also when they are handed one
by one to a hash that takes its input in chunks. -/
theorem fingerprint_streams (h : Hash.Stream) :
    (∀ parts : List String,
      (parts.scanl Hash.Stream.Fed.push ({} : h.Fed)).map (fun fed => (fed.digest, fed.count)) =
        parts.inits.map fun read => (Hash.hashText (Hash.joined read), read.length)) ∧
    (∀ parts : List String,
      (parts.scanl Hash.Parts.push {}).map (fun fed => (fed.digest, fed.count)) =
        parts.inits.map fun read => (Hash.hashText (Hash.joined read), read.length)) ∧
    (∀ tree : Element,
      fingerprint tree = Hash.hashText (Hash.joined tree.written) ∧
        ((operations tree).foldl Hash.Stream.Fed.push ({} : h.Fed)).digest = fingerprint tree) ∧
    ∀ tree other : Element, Relation.ReflTransGen Element.Retouched tree other →
      fingerprint other = fingerprint tree := by
  have streamed (parts : List String) := Hash.Stream.Fed.covers_foldl_push (h := h) parts
  have hashed (tree : Element) : fingerprint tree = Hash.hashText (Hash.joined (operations tree)) :=
    Hash.Parts.digest_ofList (operations tree)
  refine ⟨fun parts => ?_, fun parts => ?_, fun tree => ⟨?_, ?_⟩, fun tree other edits => ?_⟩
  · rw [scanl_eq_map_inits, List.map_map]
    apply List.map_congr_left
    intro read _
    exact Prod.ext (streamed read).digest_eq (streamed read).count
  · rw [scanl_eq_map_inits, List.map_map]
    apply List.map_congr_left
    intro read _
    exact Prod.ext (Hash.Parts.digest_ofList read) (Hash.Parts.covers_ofList read).count
  · rw [hashed, operations_eq_written]
  · rw [hashed, (streamed _).digest_eq]
  · rw [hashed, hashed, operations_of_retouched edits]

theorem fingerprint_streams_comment :
    let block : Element := { tag := "block", attributes := [("s", "doIf")] }
    let comment : Element := { tag := "comment", attributes := [("s", "forward")] }
    let script : Element := { tag := "script", children := [block] }
    let commented : Element := { tag := "script", children := [block, comment] }
    script.Retouched commented ∧ fingerprint commented = fingerprint script := by
  intro block comment script commented
  have blockless : comment.Blockless := by
    intro node held
    rw [Element.holds_iff] at held
    rcases held with rfl | ⟨child, listed, _⟩
    · rfl
    · contradiction
  have edit : script.Retouched commented :=
    ⟨script, commented, @Element.Retouch.children script [block] [] [comment] [] rfl
      (List.forall_mem_nil _) (List.forall_mem_singleton.mpr blockless), .here⟩
  have kept := (fingerprint_streams Hash.Stream.keeping).2.2.2 script commented (.single edit)
  exact ⟨edit, kept⟩

end Variability
