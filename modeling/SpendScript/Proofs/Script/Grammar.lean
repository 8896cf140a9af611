import SpendScript.Proofs.Script.Spelling

/-!
# Scripts as concatenated spellings

`Instruction.Spelling` lists the byte strings that spell an instruction, and a `Script.Split` cuts
bytes into such spellings. Main statement: decoding accepts exactly the bytes that can be cut, gives
the instructions that the pieces spell, and no bytes can be cut in two ways.
-/

namespace SpendScript

/-- The bytes spell the instruction. A push may announce its length in any width that holds it, be
there a shorter form or not. -/
inductive Instruction.Spelling : Instruction → Bytes → Prop
  | inlinePush {data : Bytes} : IsInlineLength data.length → data.length ∉ [0x4c, 0x4d, 0x4e] →
      Spelling (.push data) (UInt8.ofNat data.length :: data)
  | pushData1 {data : Bytes} : data.length < 2 ^ 8 →
      Spelling (.push data) (0x4c :: (leBytes 1 data.length ++ data))
  | pushData2 {data : Bytes} : data.length < 2 ^ 16 →
      Spelling (.push data) (0x4d :: (leBytes 2 data.length ++ data))
  | pushData4 {data : Bytes} : data.length < 2 ^ 32 →
      Spelling (.push data) (0x4e :: (leBytes 4 data.length ++ data))
  | op {opcode : Opcode} : ¬ opcode.IsPushData → Spelling (.op opcode) [opcode.byte]
  | unknown {byte : UInt8} : (∀ opcode : Opcode, opcode.byte ≠ byte) →
      ¬ IsInlineLength byte.toNat → Spelling (.unknown byte) [byte]

def Lexeme.part (lexeme : Lexeme) : Instruction × Bytes := (lexeme.instruction, lexeme.bytes)

theorem Lexeme.WellFormed.spelling {lexeme : Lexeme} (h : lexeme.WellFormed) :
    lexeme.instruction.Spelling lexeme.bytes := by
  cases lexeme with
  | inlinePush data => exact .inlinePush h.1 h.2
  | prefixedPush width data =>
    cases width with
    | one => exact .pushData1 h
    | two => exact .pushData2 h
    | four => exact .pushData4 h
  | op opcode => exact .op h
  | unknown byte => exact .unknown (Opcode.ofByte?_eq_none.mp h.1) h.2

theorem Instruction.Spelling.exists_lexeme {instruction : Instruction} {bytes : Bytes}
    (h : instruction.Spelling bytes) :
    ∃ lexeme : Lexeme, lexeme.WellFormed ∧ lexeme.part = (instruction, bytes) := by
  cases h with
  | inlinePush inline fresh => exact ⟨.inlinePush _, ⟨inline, fresh⟩, rfl⟩
  | pushData1 fits => exact ⟨.prefixedPush .one _, fits, rfl⟩
  | pushData2 fits => exact ⟨.prefixedPush .two _, fits, rfl⟩
  | pushData4 fits => exact ⟨.prefixedPush .four _, fits, rfl⟩
  | op plain => exact ⟨.op _, plain, rfl⟩
  | unknown unregistered outside =>
    exact ⟨.unknown _, ⟨Opcode.ofByte?_eq_none.mpr unregistered, outside⟩, rfl⟩

theorem Lexeme.flatMap_bytes_inj {lexemes others : List Lexeme}
    (h : ∀ lexeme ∈ lexemes, lexeme.WellFormed) (ho : ∀ lexeme ∈ others, lexeme.WellFormed)
    (same : lexemes.flatMap bytes = others.flatMap bytes) : lexemes = others := by
  have first : lexFrom 0 (others.flatMap bytes) = .ok lexemes := lexFrom_eq_ok.mpr ⟨h, same⟩
  have second : lexFrom 0 (others.flatMap bytes) = .ok others := lexFrom_eq_ok.mpr ⟨ho, rfl⟩
  exact Except.ok.inj (first.symm.trans second)

namespace Script

/-- A way to cut bytes into spellings: each piece beside the instruction that it spells. -/
@[ext]
structure Split (bytes : Bytes) where
  parts : List (Instruction × Bytes)
  spelled : ∀ part ∈ parts, part.1.Spelling part.2
  joined : parts.flatMap Prod.snd = bytes

namespace Split

variable {bytes : Bytes}

def script (split : Split bytes) : Script := split.parts.map Prod.fst

def ofLexemes {lexemes : List Lexeme} (h : ∀ lexeme ∈ lexemes, lexeme.WellFormed)
    (joined : lexemes.flatMap Lexeme.bytes = bytes) : Split bytes where
  parts := lexemes.map Lexeme.part
  spelled := List.forall_mem_map.mpr fun lexeme hl => (h lexeme hl).spelling
  joined := (List.flatMap_map ..).trans joined

theorem exists_lexemes_of_spelled {parts : List (Instruction × Bytes)}
    (spelled : ∀ part ∈ parts, part.1.Spelling part.2) : ∃ lexemes : List Lexeme,
      (∀ lexeme ∈ lexemes, lexeme.WellFormed) ∧ lexemes.map Lexeme.part = parts := by
  induction parts with
  | nil => exact ⟨[], nofun, rfl⟩
  | cons part rest ih =>
    obtain ⟨instruction, bytes⟩ := part
    obtain ⟨first, others⟩ := List.forall_mem_cons.mp spelled
    obtain ⟨lexeme, hl, same⟩ := Instruction.Spelling.exists_lexeme first
    obtain ⟨lexemes, hw, rfl⟩ := ih others
    exact ⟨lexeme :: lexemes, List.forall_mem_cons.mpr ⟨hl, hw⟩, by rw [List.map_cons, same]⟩

theorem exists_eq_ofLexemes (split : Split bytes) :
    ∃ (lexemes : List Lexeme) (h : ∀ lexeme ∈ lexemes, lexeme.WellFormed)
      (joined : lexemes.flatMap Lexeme.bytes = bytes), split = ofLexemes h joined := by
  obtain ⟨lexemes, h, same⟩ := exists_lexemes_of_spelled split.spelled
  refine ⟨lexemes, h, ?_, Split.ext same.symm⟩
  rw [← split.joined, ← same, List.flatMap_map]
  rfl

@[simp] theorem script_ofLexemes {lexemes : List Lexeme}
    (h : ∀ lexeme ∈ lexemes, lexeme.WellFormed)
    (joined : lexemes.flatMap Lexeme.bytes = bytes) :
    (ofLexemes h joined).script = lexemes.map Lexeme.instruction := List.map_map

instance : Subsingleton (Split bytes) where
  allEq first second := by
    obtain ⟨lexemes, h, joined, rfl⟩ := first.exists_eq_ofLexemes
    obtain ⟨others, ho, joined', rfl⟩ := second.exists_eq_ofLexemes
    obtain rfl := Lexeme.flatMap_bytes_inj h ho (joined.trans joined'.symm)
    rfl

end Split

/-- Decoding accepts exactly the script grammar, which is unambiguous. -/
theorem decode_eq_ok_iff_split (bytes : Bytes) :
    (∀ script, decode bytes = .ok script ↔ ∃ split : Split bytes, split.script = script) ∧
      Subsingleton (Split bytes) := by
  refine ⟨fun script => ?_, inferInstance⟩
  rw [decode_eq_ok]
  constructor
  · rintro ⟨lexemes, h, joined, rfl⟩
    exact ⟨.ofLexemes h joined, Split.script_ofLexemes h joined⟩
  · rintro ⟨split, rfl⟩
    obtain ⟨lexemes, h, joined, rfl⟩ := split.exists_eq_ofLexemes
    exact ⟨lexemes, h, joined, (Split.script_ofLexemes h joined).symm⟩

-- A push may announce its length in more bytes than it needs, and still be the same instruction.
example : decode [0x4d, 0x01, 0x00, 0xab] = decode [0x01, 0xab] := by cbv

end Script

end SpendScript
