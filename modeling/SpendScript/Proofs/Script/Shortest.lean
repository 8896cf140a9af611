import Mathlib.Control.Monad.Basic
import SpendScript.Proofs.Script.RoundTrip

/-!
# Shortest spellings

A push may be spelled in more bytes than it needs, and every other instruction has one spelling only.
Main statement: of the byte strings that decode to a script, its encoding is the one shortest.
-/

namespace SpendScript

namespace PushWidth

variable {width other : PushWidth}

theorem size_pos (width : PushWidth) : 0 < width.size := by
  cases width <;> decide

theorem size_inj : width.size = other.size ↔ width = other := by
  cases width <;> cases other <;> decide

theorem size_narrowest_le {n : Nat} (h : n < 256 ^ width.size) :
    (narrowest n).size ≤ width.size := by
  unfold narrowest
  cases width with
  | one =>
    have fits : n ≤ 0xff := Nat.le_of_lt_succ h
    simp only [if_pos fits, Nat.le_refl]
  | two =>
    have fits : n ≤ 0xffff := Nat.le_of_lt_succ h
    rw [if_pos fits]
    split <;> decide
  | four => split <;> (try split) <;> decide

end PushWidth

theorem Lexeme.WellFormed.eq_or_size_lt {lexeme : Lexeme} (h : lexeme.WellFormed) :
    lexeme.instruction.lexeme = lexeme ∨ lexeme.instruction.lexeme.size < lexeme.size := by
  cases lexeme with
  | inlinePush data => exact .inl (Instruction.lexeme_of_inline h)
  | prefixedPush width data =>
    rw [Lexeme.instruction]
    by_cases inline : (inlinePush data).WellFormed
    · have := width.size_pos
      rw [Instruction.lexeme_of_inline inline, size, size]
      omega
    · rw [Instruction.lexeme_of_not_inline inline]
      rcases Nat.lt_or_eq_of_le (PushWidth.size_narrowest_le h) with narrower | same
      · rw [size, size]
        omega
      · rw [PushWidth.size_inj.mp same]
        exact .inl rfl
  | op opcode => exact .inl rfl
  | unknown byte => exact .inl rfl

namespace Script

variable {script other : Script} {bytes : Bytes}

theorem length_encode_le_of_sublist (h : script.Sublist other) :
    script.encode.length ≤ other.encode.length := by
  induction h with
  | slnil => exact Nat.le_refl _
  | cons instruction _ ih =>
    rw [encode_cons, List.length_append]
    omega
  | cons_cons instruction _ ih =>
    rw [encode_cons, encode_cons, List.length_append, List.length_append]
    omega

theorem encode_eq_or_length_lt {lexemes : List Lexeme}
    (h : ∀ lexeme ∈ lexemes, lexeme.WellFormed) :
    encode (lexemes.map Lexeme.instruction) = lexemes.flatMap Lexeme.bytes ∨
      (encode (lexemes.map Lexeme.instruction)).length < (lexemes.flatMap Lexeme.bytes).length := by
  induction lexemes with
  | nil => exact .inl rfl
  | cons lexeme rest ih =>
    obtain ⟨hl, hr⟩ := List.forall_mem_cons.mp h
    rw [List.map_cons, encode_cons, List.flatMap_cons, List.length_append, List.length_append,
      Lexeme.length_bytes, Lexeme.length_bytes]
    rcases hl.eq_or_size_lt with first | first
    · rw [first]
      rcases ih hr with others | others
      · exact .inl (congrArg _ others)
      · exact .inr (Nat.add_lt_add_left others _)
    · -- No other spelling makes up for this one.
      refine .inr (Nat.add_lt_add_of_lt_of_le first ?_)
      rcases ih hr with others | others
      · exact Nat.le_of_eq (congrArg List.length others)
      · exact Nat.le_of_lt others

theorem encode_eq_or_length_lt_of_decode (h : decode bytes = .ok script) :
    script.encode = bytes ∨ script.encode.length < bytes.length := by
  obtain ⟨lexemes, hw, rfl, rfl⟩ := decode_eq_ok.mp h
  exact encode_eq_or_length_lt hw

theorem length_encode_le_of_decode (h : decode bytes = .ok script) :
    script.encode.length ≤ bytes.length := by
  rcases encode_eq_or_length_lt_of_decode h with same | shorter
  · exact Nat.le_of_eq (congrArg List.length same)
  · exact Nat.le_of_lt shorter

theorem encode_eq_of_length_eq (h : decode bytes = .ok script)
    (tie : script.encode.length = bytes.length) : script.encode = bytes :=
  (encode_eq_or_length_lt_of_decode h).resolve_right (Nat.not_lt_of_le (Nat.le_of_eq tie.symm))

/-- The bytes decode to the script, and no fewer bytes do. -/
def IsShortest (script : Script) (bytes : Bytes) : Prop :=
  decode bytes = .ok script ∧ ∀ other, decode other = .ok script → bytes.length ≤ other.length

theorem isShortest_encode (h : script.WellFormed) : script.IsShortest script.encode :=
  ⟨decode_encode h, fun _ => length_encode_le_of_decode⟩

theorem IsShortest.eq_encode (h : script.IsShortest bytes) : bytes = script.encode := by
  have decoded := decode_encode (wellFormed_of_decode h.1)
  have tie := Nat.le_antisymm (length_encode_le_of_decode h.1) (h.2 _ decoded)
  exact (encode_eq_of_length_eq h.1 tie).symm

/-- Encoding what bytes decode to gives the one shortest spelling of the script. -/
theorem encode_shortest_of_decode (h : decode bytes = .ok script) :
    script.encode.length ≤ bytes.length ∧
      (script.encode.length = bytes.length → script.encode = bytes) ∧
      ∀ shortest, script.IsShortest shortest ↔ shortest = script.encode := by
  refine ⟨length_encode_le_of_decode h, encode_eq_of_length_eq h, fun shortest => ?_⟩
  constructor
  · exact IsShortest.eq_encode
  · rintro rfl
    exact isShortest_encode (wellFormed_of_decode h)

/-- The length of this push is the byte of an opcode, so its shortest spelling is not the inline one. -/
theorem isShortest_of_wide_push :
    decode (0x4d :: 0x4c :: 0x00 :: List.replicate 0x4c 0xab) =
        .ok [.push (List.replicate 0x4c 0xab)] ∧
      IsShortest [.push (List.replicate 0x4c 0xab)]
        (0x4c :: 0x4c :: List.replicate 0x4c 0xab) := by
  have decoded : decode (0x4d :: 0x4c :: 0x00 :: List.replicate 0x4c 0xab) =
      .ok [.push (List.replicate 0x4c 0xab)] := by decide +kernel
  exact ⟨decoded, ((encode_shortest_of_decode decoded).2.2 _).mpr (by decide +kernel)⟩

end Script

end SpendScript
