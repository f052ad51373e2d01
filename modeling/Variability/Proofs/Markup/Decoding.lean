import Mathlib.Data.List.Induction
import Variability.Proofs.Markup.Building

/-! Decoding a text piece by piece. Where no reference is open, the two pieces decode by
themselves. -/
namespace Variability.Markup

def delayed {α β : Type} (k : Nat) (f : α → β) : Except BadReference α → Except BadReference β
  | .ok a => .ok (f a)
  | .error bad => .error { bad with offset := k + bad.offset }

private theorem append_push (s t : String) (c : Char) : (s ++ t).push c = s ++ t.push c :=
  String.toList_inj.mp (by simp)

namespace Decoder

/-- The decoder with `k` bytes ahead of what it has read, which stand for `out`. -/
def after (k : Nat) (out : String) (d : Decoder) : Decoder :=
  ⟨k + d.offset, out ++ d.out, d.pending.map fun (start, name) => (k + start, name)⟩

@[simp] theorem step_after (k : Nat) (out : String) (d : Decoder) (c : Char) :
    step (d.after k out) c = delayed k (after k out) (step d c) := by
  obtain ⟨offset, text, _ | ⟨start, name⟩⟩ := d
  · by_cases opens : c = '&' <;>
      simp [step, after, delayed, opens, Nat.add_assoc, append_push]
  · by_cases closes : c = ';'
    · cases known : reference? name.reverse <;>
        simp [step, after, delayed, closes, known, Nat.add_assoc, append_push]
    · simp [step, after, delayed, closes, Nat.add_assoc]

@[simp] theorem foldlM_after (k : Nat) (out : String) (cs : List Char) (d : Decoder) :
    cs.foldlM step (d.after k out) = delayed k (after k out) (cs.foldlM step d) := by
  induction cs generalizing d with
  | nil => rfl
  | cons c cs ih =>
    rw [List.foldlM_cons, List.foldlM_cons, step_after]
    cases step d c with
    | ok next => exact ih next
    | error bad => rfl

@[simp] theorem finish_after (k : Nat) (out : String) (d : Decoder) :
    (d.after k out).finish = delayed k (out ++ ·) d.finish := by
  obtain ⟨offset, text, _ | ⟨start, name⟩⟩ := d <;> rfl

private theorem mem_of_pending {cs : List Char} {last : Decoder}
    (run : cs.foldlM step {} = .ok last)
    (busy : last.pending ≠ none) : '&' ∈ cs.reverse.takeWhile (· != ';') := by
  induction cs using List.reverseRecOn generalizing last with
  | nil =>
    obtain rfl := Except.ok.inj run
    exact absurd rfl busy
  | append_singleton cs c ih =>
    rw [List.foldlM_append, bind_eq_ok_iff] at run
    obtain ⟨⟨offset, out, pending⟩, before, now⟩ := run
    rw [List.foldlM_cons, bind_eq_ok_iff] at now
    obtain ⟨_, now, same⟩ := now
    obtain rfl := Except.ok.inj same
    rw [List.reverse_append, List.reverse_singleton, List.singleton_append]
    cases pending with
    | none =>
      by_cases opens : c = '&'
      · simp [opens]
      · simp only [step, beq_iff_eq, opens, if_false] at now
        obtain rfl := Except.ok.inj now
        exact absurd rfl busy
    | some opened =>
      by_cases closes : c = ';'
      · cases known : reference? opened.2.reverse with
        | none => simp [step, closes, known] at now
        | some decoded =>
          simp only [step, beq_iff_eq, closes, if_true, known] at now
          obtain rfl := Except.ok.inj now
          exact absurd rfl busy
      · rw [List.takeWhile_cons_of_pos (by simpa using closes)]
        exact List.mem_cons_of_mem c (ih before (Option.some_ne_none opened))

private theorem offset_of_step {d next : Decoder} {c : Char} (now : step d c = .ok next) :
    next.offset = d.offset + c.utf8Size := by
  obtain ⟨offset, out, _ | ⟨start, name⟩⟩ := d
  · by_cases opens : c = '&'
    · subst opens
      obtain rfl := Except.ok.inj now
      rfl
    · rw [step_plain opens] at now
      obtain rfl := Except.ok.inj now
      rfl
  · by_cases closes : c = ';'
    · subst closes
      cases known : reference? name.reverse with
      | none => simp [step, known] at now
      | some decoded =>
        rw [step_close known] at now
        obtain rfl := Except.ok.inj now
        rfl
    · rw [step_name closes] at now
      obtain rfl := Except.ok.inj now
      rfl

private theorem offset_of_foldlM {cs : List Char} {d last : Decoder}
    (run : cs.foldlM step d = .ok last) :
    last.offset = d.offset + (String.ofList cs).utf8ByteSize := by
  induction cs generalizing d with
  | nil =>
    obtain rfl := Except.ok.inj run
    rfl
  | cons c cs ih =>
    rw [List.foldlM_cons, bind_eq_ok_iff] at run
    obtain ⟨next, now, later⟩ := run
    have size : (String.ofList (c :: cs)).utf8ByteSize =
        c.utf8Size + (String.ofList cs).utf8ByteSize := by
      rw [← List.singleton_append, String.ofList_append, String.utf8ByteSize_append]
      simp
    rw [ih later, offset_of_step now, size, Nat.add_assoc]

end Decoder

section Append
variable {left : String} {offset : Nat} {out : String}

theorem decode_of_run (run : left.toList.foldlM Decoder.step {} = .ok ⟨offset, out, none⟩) :
    decode left = .ok out := by
  rw [decode, run]
  rfl

theorem decode_append_of_run (run : left.toList.foldlM Decoder.step {} = .ok ⟨offset, out, none⟩)
    (right : String) : decode (left ++ right) = delayed offset (out ++ ·) (decode right) := by
  have resumed : Decoder.mk offset out none = Decoder.after offset out {} := by
    rw [Decoder.after, Nat.add_zero, String.append_empty, Option.map_none]
  rw [decode, decode, String.toList_append, List.foldlM_append, run, resumed]
  change (right.toList.foldlM Decoder.step (Decoder.after offset out {}) >>= Decoder.finish) = _
  rw [Decoder.foldlM_after]
  cases right.toList.foldlM Decoder.step {} with
  | error bad => rfl
  | ok last => exact Decoder.finish_after offset out last

private theorem run_of_decode (decoded : decode left = .ok out) :
    left.toList.foldlM Decoder.step {} = .ok ⟨left.utf8ByteSize, out, none⟩ := by
  rw [decode, bind_eq_ok_iff] at decoded
  obtain ⟨⟨offset, text, pending⟩, run, ended⟩ := decoded
  have place := Decoder.offset_of_foldlM run
  rw [String.ofList_toList] at place
  cases pending with
  | some opened => contradiction
  | none =>
    obtain rfl := Except.ok.inj ended
    obtain rfl : offset = left.utf8ByteSize := place.trans (Nat.zero_add _)
    exact run

theorem decode_append (decoded : decode left = .ok out) (right : String) :
    decode (left ++ right) = delayed left.utf8ByteSize (out ++ ·) (decode right) :=
  decode_append_of_run (run_of_decode decoded) right

end Append

def Unopened (raw : String) : Prop := '&' ∉ raw.toList.reverse.takeWhile (· != ';')

instance (raw : String) : Decidable (Unopened raw) := inferInstanceAs (Decidable (_ ∉ _))

theorem exists_decode_append {left right text : String} (closed : Unopened left)
    (decoded : decode (left ++ right) = .ok text) :
    ∃ first second, decode left = .ok first ∧ decode right = .ok second ∧
      text = first ++ second := by
  cases run : left.toList.foldlM Decoder.step {} with
  | error bad =>
    rw [decode, String.toList_append, List.foldlM_append, run] at decoded
    contradiction
  | ok last =>
    obtain ⟨offset, out, pending⟩ := last
    obtain rfl : pending = none := by
      by_contra busy
      exact closed (Decoder.mem_of_pending run busy)
    rw [decode_append_of_run run] at decoded
    cases second : decode right with
    | error bad =>
      rw [second] at decoded
      contradiction
    | ok rest =>
      rw [second] at decoded
      exact ⟨out, rest, decode_of_run run, rfl, (Except.ok.inj decoded).symm⟩

end Variability.Markup
