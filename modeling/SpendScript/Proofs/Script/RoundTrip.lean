import Mathlib.Tactic.TFAE
import SpendScript.Proofs.Script.Spelling

/-!
# Encoding and decoding

A script survives being written and read back exactly if it is well formed, and the well formed
scripts are exactly those that decoding can give. On them `Script.encode` is injective.
-/

namespace SpendScript

namespace Script

variable {script other : Script} {bytes : Bytes}

theorem encode_eq_flatMap (script : Script) :
    script.encode = (script.map Instruction.lexeme).flatMap Lexeme.bytes :=
  (List.flatMap_map ..).symm

@[simp] theorem encode_cons (instruction : Instruction) (script : Script) :
    encode (instruction :: script) = instruction.lexeme.bytes ++ encode script :=
  List.flatMap_cons

theorem encode_eq_nil : script.encode = [] ↔ script = [] := by
  constructor
  · intro h
    cases script with
    | nil => rfl
    | cons instruction rest =>
      rw [encode_cons, List.append_eq_nil_iff] at h
      have size : instruction.lexeme.size = 0 := by rw [← Lexeme.length_bytes, h.1]; rfl
      exact (Nat.ne_of_gt instruction.lexeme.size_pos size).elim
  · rintro rfl
    rfl

theorem wellFormed_of_decode (h : decode bytes = .ok script) : script.WellFormed := by
  obtain ⟨lexemes, hw, -, rfl⟩ := decode_eq_ok.mp h
  intro instruction hi
  obtain ⟨lexeme, hl, rfl⟩ := List.mem_map.mp hi
  exact (hw lexeme hl).instruction

theorem decode_encode (h : script.WellFormed) : decode script.encode = .ok script := by
  refine decode_eq_ok.mpr ⟨script.map Instruction.lexeme, ?_, (encode_eq_flatMap script).symm, ?_⟩
  · intro lexeme hl
    obtain ⟨instruction, hi, rfl⟩ := List.mem_map.mp hl
    exact (h instruction hi).lexeme
  · simp [Function.comp_def]

theorem encode_inj (h : script.WellFormed) (ho : other.WellFormed) :
    script.encode = other.encode ↔ script = other := by
  constructor
  · intro same
    have read := decode_encode h
    rw [same, decode_encode ho] at read
    exact (Except.ok.inj read).symm
  · rintro rfl
    rfl

/-- The round trip through bytes holds on exactly the scripts that decoding can give. -/
theorem wellFormed_tfae (script : Script) :
    [script.WellFormed, decode script.encode = .ok script,
      ∃ bytes, decode bytes = .ok script].TFAE := by
  tfae_have 1 → 2 := decode_encode
  tfae_have 2 → 3 := fun h => ⟨_, h⟩
  tfae_have 3 → 1 := fun ⟨_, h⟩ => wellFormed_of_decode h
  tfae_finish

-- The byte of a registered opcode comes back as the opcode.
example : decode (encode [.unknown 0x76]) = .ok [.op .dup] := by cbv

end Script

end SpendScript
