import Mathlib.Data.List.Basic
import Mathlib.Data.List.Induction
import Variability.Hash.Parts

/-! Hashing part by part is hashing the joined text, as long as the hash does not mind how
its input is cut. The joined text tells the parts apart as long as no part is empty and
none has a bar. -/
namespace Variability.Hash

def joined (parts : List String) : String := "|".intercalate parts

theorem joined_concat (parts : List String) (part : String) (nonempty : parts ≠ []) :
    joined (parts ++ [part]) = joined parts ++ "|" ++ part := by
  rw [joined, String.intercalate_append_of_ne_nil nonempty (List.cons_ne_nil _ _),
    String.intercalate_singleton]
  rfl

private theorem toByteArray_bar : "|".toByteArray = ⟨#[separator]⟩ := by decide

private theorem push_separator (bytes : ByteArray) :
    bytes.push separator = bytes ++ ⟨#[separator]⟩ := by
  apply ByteArray.ext
  rw [ByteArray.data_push, ByteArray.data_append, Array.push_eq_append]

/-- A hash that takes its input chunk by chunk, however it is cut. -/
structure Stream where
  State : Type
  start : State
  update : State → ByteArray → State
  digest : State → UInt64
  digest_updates : ∀ chunks : List ByteArray,
    digest (chunks.foldl update start) = xxh3 (chunks.foldl (· ++ ·) ByteArray.empty)

namespace Stream

def keeping : Stream where
  State := ByteArray
  start := ByteArray.empty
  update := (· ++ ·)
  digest := xxh3
  digest_updates _ := rfl

structure Fed (h : Stream) where
  state : h.State := h.start
  count : Nat := 0

namespace Fed
variable {h : Stream}

def push (fed : h.Fed) (part : String) : h.Fed :=
  let state := if fed.count == 0 then fed.state else h.update fed.state ⟨#[separator]⟩
  { state := h.update state part.toByteArray, count := fed.count + 1 }

def digest (fed : h.Fed) : UInt64 := h.digest fed.state

/-- The chunks so far make up the joined text of the parts. -/
structure Covers (fed : h.Fed) (parts : List String) : Prop where
  count : fed.count = parts.length
  chunks : ∃ chunks : List ByteArray, fed.state = chunks.foldl h.update h.start ∧
    chunks.foldl (· ++ ·) ByteArray.empty = (joined parts).toByteArray

theorem covers_nil : Covers ({} : h.Fed) [] :=
  ⟨rfl, [], rfl, rfl⟩

theorem Covers.push {fed : h.Fed} {parts : List String} (covers : fed.Covers parts)
    (part : String) : (fed.push part).Covers (parts ++ [part]) := by
  obtain ⟨count, chunks, state, concat⟩ := covers
  refine ⟨by simp [Fed.push, count], ?_⟩
  cases parts with
  | nil =>
    refine ⟨chunks ++ [part.toByteArray], ?_, ?_⟩
    · simp [Fed.push, count, state]
    · simp [concat, joined]
  | cons first rest =>
    -- the separator is a chunk of its own
    refine ⟨chunks ++ [⟨#[separator]⟩, part.toByteArray], ?_, ?_⟩
    · simp [Fed.push, count, state]
    · rw [joined_concat _ _ (List.cons_ne_nil _ _), String.toByteArray_append,
        String.toByteArray_append, ← concat, toByteArray_bar]
      simp

theorem covers_foldl_push (parts : List String) :
    (parts.foldl push ({} : h.Fed)).Covers parts := by
  induction parts using List.reverseRecOn with
  | nil => exact covers_nil
  | append_singleton parts part ih =>
    rw [List.foldl_append]
    exact ih.push part

theorem Covers.digest_eq {fed : h.Fed} {parts : List String} (covers : fed.Covers parts) :
    fed.digest = hashText (joined parts) := by
  obtain ⟨_, chunks, state, concat⟩ := covers
  rw [digest, state, h.digest_updates, concat]
  rfl

end Fed
end Stream

namespace Parts

def fed (parts : Parts) : Stream.keeping.Fed := ⟨parts.bytes, parts.count⟩

@[simp] theorem fed_push (parts : Parts) (part : String) :
    (parts.push part).fed = parts.fed.push part := by
  unfold push Stream.Fed.push fed
  rw [push_separator]
  rfl

@[simp] theorem fed_ofList (parts : List String) :
    (ofList parts).fed = parts.foldl Stream.Fed.push {} :=
  (List.foldl_hom fed fun parts part => (fed_push parts part).symm).symm

theorem covers_ofList (parts : List String) : (ofList parts).fed.Covers parts := by
  rw [fed_ofList]
  exact Stream.Fed.covers_foldl_push parts

@[simp]
theorem digest_ofList (parts : List String) : (ofList parts).digest = hashText (joined parts) :=
  (covers_ofList parts).digest_eq

end Parts

@[simp] theorem toList_joined (parts : List String) :
    (joined parts).toList = ['|'].intercalate (parts.map String.toList) :=
  String.toList_intercalate

private theorem joined_ne_empty {parts : List String} (nonempty : parts ≠ []) (full : "" ∉ parts) :
    joined parts ≠ "" := by
  obtain ⟨first, rest, rfl⟩ := List.exists_cons_of_ne_nil nonempty
  have named : first ≠ "" := fun empty => full (empty ▸ List.mem_cons_self)
  cases rest with
  | nil => simpa [joined] using named
  | cons next others =>
    rw [joined, String.intercalate_cons_cons]
    simp [named]

private theorem splitOn_joined {parts : List String} (nonempty : parts ≠ [])
    (free : ∀ s ∈ parts, '|' ∉ s.toList) :
    (joined parts).toList.splitOn '|' = parts.map String.toList := by
  rw [toList_joined]
  exact List.splitOn_intercalate '|' (by simpa using free) (by simpa using nonempty)

/-- Parts that are not empty and have no bar can be read off the joined text. -/
theorem joined_inj {parts others : List String}
    (full : "" ∉ parts) (free : ∀ s ∈ parts, '|' ∉ s.toList)
    (full' : "" ∉ others) (free' : ∀ s ∈ others, '|' ∉ s.toList)
    (same : joined parts = joined others) : parts = others := by
  cases parts with
  | nil =>
    cases others with
    | nil => rfl
    | cons other rest => exact absurd same.symm (joined_ne_empty (List.cons_ne_nil _ _) full')
  | cons part parts =>
    cases others with
    | nil => exact absurd same (joined_ne_empty (List.cons_ne_nil _ _) full)
    | cons other others =>
      apply List.map_injective_iff.mpr fun _ _ => String.toList_inj.mp
      rw [← splitOn_joined (List.cons_ne_nil _ _) free,
        ← splitOn_joined (List.cons_ne_nil _ _) free', same]

end Variability.Hash
