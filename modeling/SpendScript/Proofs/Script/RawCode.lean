import SpendScript.Proofs.Script.Grammar
import SpendScript.Proofs.Script.Separators
import SpendScript.Proofs.Script.Shortest

/-!
# The script code as it stands in the script

Decoding forgets how a push is spelled, and the script code is written out anew when it is signed.
`Split.rawCode` is what stands for it in the bytes of the script. Main statement: the two are the same
exactly if every push of the script code is spelled in its shortest form, and otherwise the one that is
written anew is shorter.
-/

namespace SpendScript

/-- The bytes spell the push in its shortest form: the length stands in the first byte if it can, and
else behind the narrowest opcode that it fits. -/
inductive ShortestPush (data : Bytes) : Bytes → Prop
  | inlinePush : IsInlineLength data.length → data.length ∉ [0x4c, 0x4d, 0x4e] →
      ShortestPush data (UInt8.ofNat data.length :: data)
  | pushData1 : ¬ (IsInlineLength data.length ∧ data.length ∉ [0x4c, 0x4d, 0x4e]) →
      data.length < 2 ^ 8 → ShortestPush data (0x4c :: (leBytes 1 data.length ++ data))
  | pushData2 : 2 ^ 8 ≤ data.length → data.length < 2 ^ 16 →
      ShortestPush data (0x4d :: (leBytes 2 data.length ++ data))
  | pushData4 : 2 ^ 16 ≤ data.length → data.length < 2 ^ 32 →
      ShortestPush data (0x4e :: (leBytes 4 data.length ++ data))

namespace PushWidth

variable {n : Nat}

theorem narrowest_one (h : n < 2 ^ 8) : narrowest n = .one := if_pos (Nat.le_of_lt_succ h)

theorem narrowest_two (wide : 2 ^ 8 ≤ n) (h : n < 2 ^ 16) : narrowest n = .two := by
  rw [narrowest, if_neg (Nat.not_le_of_lt wide), if_pos (Nat.le_of_lt_succ h)]

theorem narrowest_four (wide : 2 ^ 16 ≤ n) : narrowest n = .four := by
  rw [narrowest, if_neg (by omega), if_neg (Nat.not_le_of_lt wide)]

end PushWidth

theorem not_inline_of_wide {data : Bytes} (wide : 2 ^ 8 ≤ data.length) :
    ¬ (Lexeme.inlinePush data).WellFormed := by
  rintro ⟨⟨-, short⟩, -⟩
  have : data.length ≤ 0x75 := short
  omega

theorem ShortestPush.eq_bytes_lexeme {data bytes : Bytes} (h : ShortestPush data bytes) :
    bytes = (Instruction.push data).lexeme.bytes := by
  cases h with
  | inlinePush inline fresh =>
    rw [Instruction.lexeme_of_inline ⟨inline, fresh⟩]
    rfl
  | pushData1 long fits =>
    rw [Instruction.lexeme_of_not_inline long, PushWidth.narrowest_one fits]
    rfl
  | pushData2 wide fits =>
    rw [Instruction.lexeme_of_not_inline (not_inline_of_wide wide), PushWidth.narrowest_two wide fits]
    rfl
  | pushData4 wide fits =>
    have wider : 2 ^ 8 ≤ data.length := by omega
    rw [Instruction.lexeme_of_not_inline (not_inline_of_wide wider), PushWidth.narrowest_four wide]
    rfl

theorem shortestPush_lexeme {data : Bytes} (fits : data.length < 2 ^ 32) :
    ShortestPush data (Instruction.push data).lexeme.bytes := by
  by_cases inline : (Lexeme.inlinePush data).WellFormed
  · rw [Instruction.lexeme_of_inline inline]
    exact .inlinePush inline.1 inline.2
  · rw [Instruction.lexeme_of_not_inline inline]
    by_cases one : data.length < 2 ^ 8
    · rw [PushWidth.narrowest_one one]
      exact .pushData1 inline one
    · have wide := Nat.le_of_not_lt one
      by_cases two : data.length < 2 ^ 16
      · rw [PushWidth.narrowest_two wide two]
        exact .pushData2 wide two
      · rw [PushWidth.narrowest_four (Nat.le_of_not_lt two)]
        exact .pushData4 (Nat.le_of_not_lt two) fits

namespace Lexeme

variable {lexeme other : Lexeme}

theorem WellFormed.bytes_inj (h : lexeme.WellFormed) (ho : other.WellFormed) :
    lexeme.bytes = other.bytes ↔ lexeme = other := by
  refine ⟨fun same => ?_, congrArg bytes⟩
  have joined : [lexeme].flatMap bytes = [other].flatMap bytes := by simpa using same
  simpa using flatMap_bytes_inj (by simpa using h) (by simpa using ho) joined

theorem WellFormed.lexeme_instruction_iff (h : lexeme.WellFormed) :
    lexeme.instruction.lexeme = lexeme ↔
      ∀ data, lexeme.instruction = .push data → ShortestPush data lexeme.bytes := by
  constructor
  · intro same data push
    have fits : (Instruction.push data).WellFormed := push ▸ h.instruction
    rw [← same, push]
    exact shortestPush_lexeme fits
  · intro shortest
    cases spelled : lexeme.instruction with
    | push data =>
      have written : (Instruction.push data).lexeme.WellFormed := (spelled ▸ h.instruction).lexeme
      exact (written.bytes_inj h).mp (shortest data spelled).eq_bytes_lexeme.symm
    | op opcode => cases lexeme <;> cases spelled; rfl
    | unknown byte => cases lexeme <;> cases spelled; rfl

end Lexeme

namespace Script

variable {bytes : Bytes} {script : Script}

theorem encode_eq_flatMap_iff {lexemes : List Lexeme}
    (h : ∀ lexeme ∈ lexemes, lexeme.WellFormed) :
    encode (lexemes.map Lexeme.instruction) = lexemes.flatMap Lexeme.bytes ↔
      ∀ lexeme ∈ lexemes, lexeme.instruction.lexeme = lexeme := by
  -- Both sides join well formed spellings, and no bytes are joined in two ways.
  have kept : (∀ lexeme ∈ lexemes, lexeme.instruction.lexeme = lexeme) ↔
      lexemes.map (·.instruction.lexeme) = lexemes := by
    rw [← List.map_inj_left, List.map_id']
  have written : ∀ lexeme ∈ lexemes.map (·.instruction.lexeme), lexeme.WellFormed :=
    List.forall_mem_map.mpr fun lexeme hl => (h lexeme hl).instruction.lexeme
  rw [encode_eq_flatMap, List.map_map, kept]
  exact ⟨Lexeme.flatMap_bytes_inj written h, congrArg (List.flatMap Lexeme.bytes)⟩

/-- How many instructions stand before the part of the script that the script code is taken from. -/
def codeStart (script : Script) : Nat := script.length - (afterSeparator script script).length

theorem subscript_eq_drop (script : Script) :
    script.subscript = withoutSeparators (script.drop script.codeStart) :=
  congrArg withoutSeparators
    (List.suffix_iff_eq_drop.mp (afterSeparator_suffix (List.suffix_refl script)))

namespace Split

def codeParts (split : Split bytes) : List (Instruction × Bytes) :=
  (split.parts.drop split.script.codeStart).filter (·.1 ≠ .op .codeSeparator)

/-- The script code as it is spelled in the bytes. -/
def rawCode (split : Split bytes) : Bytes := split.codeParts.flatMap Prod.snd

def WritesShortest (split : Split bytes) : Prop :=
  ∀ part ∈ split.codeParts, ∀ data, part.1 = .push data → ShortestPush data part.2

theorem map_fst_codeParts (split : Split bytes) :
    split.codeParts.map Prod.fst = split.script.subscript := by
  have dropped : split.script.drop split.script.codeStart =
      (split.parts.drop split.script.codeStart).map Prod.fst := List.map_drop.symm
  rw [subscript_eq_drop, dropped, withoutSeparators_eq_filter, List.filter_map]
  rfl

theorem exists_code_lexemes (split : Split bytes) : ∃ lexemes : List Lexeme,
    (∀ lexeme ∈ lexemes, lexeme.WellFormed) ∧ lexemes.map Lexeme.part = split.codeParts ∧
      split.script.subscript = lexemes.map Lexeme.instruction ∧
      split.rawCode = lexemes.flatMap Lexeme.bytes := by
  have spelled : ∀ part ∈ split.codeParts, part.1.Spelling part.2 := fun part mem =>
    split.spelled part (List.mem_of_mem_drop (List.mem_of_mem_filter mem))
  obtain ⟨lexemes, h, same⟩ := exists_lexemes_of_spelled spelled
  refine ⟨lexemes, h, same, ?_, ?_⟩
  · rw [← map_fst_codeParts, ← same, List.map_map]
    rfl
  · rw [rawCode, ← same, List.flatMap_map]
    rfl

theorem encode_subscript_eq_rawCode_iff (split : Split bytes) :
    split.script.subscript.encode = split.rawCode ↔ split.WritesShortest := by
  obtain ⟨lexemes, h, parts, code, raw⟩ := split.exists_code_lexemes
  rw [code, raw, encode_eq_flatMap_iff h, WritesShortest, ← parts, List.forall_mem_map]
  exact forall₂_congr fun lexeme hl => (h lexeme hl).lexeme_instruction_iff

theorem length_encode_subscript_lt (split : Split bytes) (wide : ¬ split.WritesShortest) :
    split.script.subscript.encode.length < split.rawCode.length := by
  rw [← encode_subscript_eq_rawCode_iff] at wide
  obtain ⟨lexemes, h, -, code, raw⟩ := split.exists_code_lexemes
  rw [code, raw] at wide ⊢
  exact (encode_eq_or_length_lt h).resolve_left wide

end Split

theorem exists_split_of_decode (decoded : decode bytes = .ok script) :
    ∃ split : Split bytes, (lex bytes).map (List.map Lexeme.part) = .ok split.parts ∧
      split.script = script := by
  obtain ⟨lexemes, lexed, same⟩ := Except.map_eq_ok.mp decoded
  obtain ⟨h, joined⟩ := lexFrom_eq_ok.mp lexed
  refine ⟨.ofLexemes h joined, ?_, ?_⟩
  · rw [lexed]
    rfl
  · rw [Split.script_ofLexemes, same]

end Script

end SpendScript
