import Mathlib.Data.List.Induction
import SpendScript.Machine.Stack
import SpendScript.Proofs.Bytes

/-!
# Truth and numbers

An item can be read as a number: its bytes are the magnitude, least significant byte first, but for
the top bit of the last byte, which is the sign. Main statement: an item is false exactly if the number
that it encodes is zero, which it is for zeros of any length and either sign and for nothing else.
-/

namespace SpendScript

variable {low : Bytes} {last byte : UInt8}

def signedNumber (item : Bytes) : Int :=
  match item.getLast? with
  | none => 0
  | some last =>
    let magnitude := ofLeBytes (item.dropLast ++ [last &&& 0x7f])
    if last &&& 0x80 = 0 then magnitude else -magnitude

theorem and_magnitude_eq_zero : last &&& 0x7f = 0 ↔ last = 0 ∨ last = 0x80 := by
  have small := last.toNat_lt
  have magnitude : (last &&& 0x7f).toNat = last.toNat % 2 ^ 7 := by
    rw [UInt8.toNat_and]
    exact Nat.and_two_pow_sub_one_eq_mod last.toNat 7
  simp only [← UInt8.toNat_inj, magnitude, UInt8.toNat_zero,
    show (0x80 : UInt8).toNat = 128 from rfl]
  omega

theorem signedNumber_concat_eq_zero : signedNumber (low ++ [last]) = 0 ↔
    (∀ byte ∈ low, byte = 0) ∧ (last = 0 ∨ last = 0x80) := by
  have magnitude : ofLeBytes (low ++ [last &&& 0x7f]) = 0 ↔
      (∀ byte ∈ low, byte = 0) ∧ (last = 0 ∨ last = 0x80) := by
    simp only [ofLeBytes_eq_zero, List.forall_mem_append, List.forall_mem_singleton,
      and_magnitude_eq_zero]
  rw [← magnitude]
  simp only [signedNumber, List.getLast?_concat, List.dropLast_concat]
  split <;> omega

theorem isTruthy_cons_concat : isTruthy (byte :: (low ++ [last])) =
    (byte != 0 || isTruthy (low ++ [last])) := by
  cases low <;> rfl

theorem isTruthy_concat_eq_false : isTruthy (low ++ [last]) = false ↔
    (∀ byte ∈ low, byte = 0) ∧ (last = 0 ∨ last = 0x80) := by
  induction low with
  | nil => simp [isTruthy, Decidable.or_iff_not_imp_left]
  | cons byte rest ih =>
    rw [List.cons_append, isTruthy_cons_concat, Bool.or_eq_false_iff, ih, bne_eq_false_iff_eq,
      List.forall_mem_cons, and_assoc]

theorem exists_zero_iff : (∃ width, low ++ [last] = List.replicate width 0 ∨
      low ++ [last] = List.replicate width 0 ++ [0x80]) ↔
    (∀ byte ∈ low, byte = 0) ∧ (last = 0 ∨ last = 0x80) := by
  constructor
  · rintro ⟨width, positive | negative⟩
    · have zeros := (List.eq_replicate_iff.mp positive).2
      rw [List.forall_mem_append, List.forall_mem_singleton] at zeros
      exact ⟨zeros.1, .inl zeros.2⟩
    · obtain ⟨rfl, sign⟩ := List.append_inj' negative rfl
      exact ⟨fun byte => List.eq_of_mem_replicate, .inr (List.singleton_inj.mp sign)⟩
  · rintro ⟨zeros, rfl | rfl⟩
    · refine ⟨low.length + 1, .inl ?_⟩
      rw [List.replicate_succ', ← List.eq_replicate_of_mem zeros]
    · exact ⟨low.length, .inr (by rw [← List.eq_replicate_of_mem zeros])⟩

/-- Goes through the bytes from `index` on, where the item has `length` of them. The first that is not
zero decides. -/
def scanTruth (length index : Nat) : Bytes → Bool
  | [] => false
  | byte :: rest =>
    if byte != 0 then !(index == length - 1 && byte == 0x80)
    else scanTruth length (index + 1) rest

theorem isTruthy_zero_cons (rest : Bytes) : isTruthy (0 :: rest) = isTruthy rest := by
  cases rest <;> rfl

theorem scanTruth_eq {length index : Nat} {rest : Bytes} (position : index + rest.length = length) :
    scanTruth length index rest = isTruthy rest := by
  induction rest generalizing index with
  | nil => rfl
  | cons byte rest ih =>
    rw [List.length_cons] at position
    by_cases zero : byte = 0
    · subst zero
      rw [isTruthy_zero_cons]
      exact ih (by omega)
    · have decides : (byte != 0) = true := bne_iff_ne.mpr zero
      rw [scanTruth, if_pos decides]
      -- Whether the byte is the last one shows in its position.
      cases rest with
      | nil =>
        have last : (index == length - 1) = true := by rw [← position]; exact beq_self_eq_true _
        rw [last, isTruthy, decides, Bool.true_and, Bool.true_and]
        rfl
      | cons next rest =>
        have before : (index == length - 1) = false := by
          rw [List.length_cons] at position
          exact beq_eq_false_iff_ne.mpr (by omega)
        show _ = (byte != 0 || isTruthy (next :: rest))
        rw [before, decides]
        rfl

/-- An item is false exactly if the number that it encodes is zero: if it is a zero of either sign. -/
theorem isTruthy_eq_false_iff (item : Bytes) :
    (isTruthy item = false ↔ signedNumber item = 0) ∧
      (isTruthy item = false ↔ ∃ width, item = List.replicate width 0 ∨
        item = List.replicate width 0 ++ [0x80]) ∧
      scanTruth item.length 0 item = isTruthy item := by
  refine ⟨?_, ?_, scanTruth_eq (Nat.zero_add _)⟩
  · cases item using List.reverseRecOn with
    | nil => simp [isTruthy, signedNumber]
    | append_singleton low last =>
      rw [isTruthy_concat_eq_false, signedNumber_concat_eq_zero]
  · cases item using List.reverseRecOn with
    | nil => exact iff_of_true rfl ⟨0, .inl rfl⟩
    | append_singleton low last => rw [isTruthy_concat_eq_false, exists_zero_iff]

example : signedNumber [0x80, 0] = 128 ∧ isTruthy [0x80, 0] ∧
    signedNumber [0, 0x80, 0x80] = -32768 ∧ isTruthy [0, 0x80, 0x80] ∧
    signedNumber [0, 0, 0x80] = 0 ∧ ¬ isTruthy [0, 0, 0x80] := by
  decide

end SpendScript
