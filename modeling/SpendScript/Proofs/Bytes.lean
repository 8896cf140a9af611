import Mathlib.Algebra.Group.Nat.Defs
import SpendScript.Bytes

/-!
# Numbers in byte strings

A number that fits survives being written and read back. Leading zeros do not change the number that
is read most significant byte first.
-/

namespace SpendScript

theorem ofLeBytes_lt (bytes : Bytes) : ofLeBytes bytes < 256 ^ bytes.length := by
  induction bytes with
  | nil => simp [ofLeBytes]
  | cons byte rest ih =>
    have := byte.toNat_lt
    simp only [ofLeBytes, List.length_cons, Nat.pow_succ]
    omega

theorem ofLeBytes_append (low high : Bytes) :
    ofLeBytes (low ++ high) = ofLeBytes low + 256 ^ low.length * ofLeBytes high := by
  induction low with
  | nil => simp [ofLeBytes]
  | cons byte rest ih =>
    simp only [List.cons_append, ofLeBytes, ih, List.length_cons, Nat.pow_succ, Nat.mul_add,
      Nat.mul_assoc, Nat.add_assoc, Nat.mul_left_comm 256]

theorem ofLeBytes_eq_zero {bytes : Bytes} : ofLeBytes bytes = 0 ↔ ∀ byte ∈ bytes, byte = 0 := by
  induction bytes with
  | nil => simp [ofLeBytes]
  | cons byte rest ih =>
    have zero : byte.toNat = 0 ↔ byte = 0 := UInt8.toNat_inj (b := 0)
    rw [List.forall_mem_cons, ← ih, ← zero, ofLeBytes]
    omega

theorem ofLeBytes_leBytes {width n : Nat} (h : n < 256 ^ width) :
    ofLeBytes (leBytes width n) = n := by
  induction width generalizing n with
  | zero => simp_all [leBytes, ofLeBytes]
  | succ width ih =>
    have high : n / 256 < 256 ^ width := by
      rw [Nat.pow_succ] at h
      omega
    have low : (UInt8.ofNat n).toNat = n % 256 := UInt8.toNat_ofNat'
    simp only [leBytes, ofLeBytes, ih high, low]
    omega

theorem ofBeBytes_zero_cons (bytes : Bytes) : ofBeBytes (0 :: bytes) = ofBeBytes bytes := rfl

theorem ofBeBytes_dropWhile_zero (bytes : Bytes) :
    ofBeBytes (bytes.dropWhile (· == 0)) = ofBeBytes bytes := by
  induction bytes with
  | nil => rfl
  | cons byte rest ih =>
    rw [List.dropWhile_cons]
    split
    next zero =>
      obtain rfl : byte = 0 := by simpa using zero
      rw [ih, ofBeBytes_zero_cons]
    next => rfl

end SpendScript
