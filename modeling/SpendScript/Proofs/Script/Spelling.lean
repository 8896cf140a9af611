import SpendScript.Proofs.Bytes
import SpendScript.Proofs.Except
import SpendScript.Script.Codec

/-!
# The grammar of script bytes

`Lexeme.WellFormed` says which spellings belong to the grammar. Main statements: `Lexeme.read`
succeeds exactly on an input that starts with a well formed spelling, and `Script.decode` exactly on
the concatenations of such spellings.
-/

namespace SpendScript

-- ----------------------------------------------------------------------------
-- Opcodes by their bytes
-- ----------------------------------------------------------------------------

/-- The opcodes that announce a push, and so never stand for themselves. -/
def Opcode.IsPushData (opcode : Opcode) : Prop := opcode ∈ [.pushData1, .pushData2, .pushData4]

instance : DecidablePred Opcode.IsPushData := fun opcode =>
  inferInstanceAs (Decidable (opcode ∈ _))

def IsInlineLength (n : Nat) : Prop := 1 ≤ n ∧ n ≤ maxInlinePush

instance : DecidablePred IsInlineLength := fun _ => inferInstanceAs (Decidable (_ ∧ _))

namespace Opcode

@[simp] theorem pushWidth?_opcode (width : PushWidth) : width.opcode.pushWidth? = some width := by
  cases width <;> rfl

theorem pushWidth?_eq_none {opcode : Opcode} : opcode.pushWidth? = none ↔ ¬ opcode.IsPushData := by
  cases opcode <;> decide

theorem ofByte?_ofNat_eq_none {n : Nat} (h : IsInlineLength n) :
    ofByte? (UInt8.ofNat n) = none ↔ n ∉ [0x4c, 0x4d, 0x4e] := by
  obtain ⟨-, h⟩ := h
  revert n
  decide

end Opcode

-- ----------------------------------------------------------------------------
-- Well formed instructions and spellings
-- ----------------------------------------------------------------------------

/-- An instruction that some byte string decodes to. -/
def Instruction.WellFormed : Instruction → Prop
  | .push data => data.length < 2 ^ 32
  | .op opcode => ¬ opcode.IsPushData
  | .unknown byte => Opcode.ofByte? byte = none ∧ ¬ IsInlineLength byte.toNat

def Script.WellFormed (script : Script) : Prop := ∀ instruction ∈ script, instruction.WellFormed

/-- A spelling of the grammar. A length that is also the byte of an opcode cannot stand inline. -/
def Lexeme.WellFormed : Lexeme → Prop
  | .inlinePush data => IsInlineLength data.length ∧ data.length ∉ [0x4c, 0x4d, 0x4e]
  | .prefixedPush width data => data.length < 256 ^ width.size
  | .op opcode => ¬ opcode.IsPushData
  | .unknown byte => Opcode.ofByte? byte = none ∧ ¬ IsInlineLength byte.toNat

instance : DecidablePred Instruction.WellFormed
  | .push _ => inferInstanceAs (Decidable (_ < _))
  | .op _ => inferInstanceAs (Decidable (¬ _))
  | .unknown _ => inferInstanceAs (Decidable (_ ∧ _))

instance : DecidablePred Script.WellFormed := fun _ =>
  inferInstanceAs (Decidable (∀ _ ∈ _, Instruction.WellFormed _))

theorem PushWidth.size_le (width : PushWidth) : width.size ≤ 4 := by
  cases width <;> decide

theorem PushWidth.lt_of_narrowest {n : Nat} (h : n < 2 ^ 32) : n < 256 ^ (narrowest n).size := by
  unfold narrowest
  split
  · simp only [size]; omega
  · split <;> simp only [size] <;> omega

theorem Lexeme.WellFormed.instruction {lexeme : Lexeme} (h : lexeme.WellFormed) :
    lexeme.instruction.WellFormed := by
  cases lexeme with
  | inlinePush data =>
    have : data.length ≤ 0x75 := h.1.2
    simp only [Lexeme.instruction, Instruction.WellFormed]
    omega
  | prefixedPush width data =>
    have le : 256 ^ width.size ≤ 256 ^ 4 := Nat.pow_le_pow_right (by decide) width.size_le
    exact Nat.lt_of_lt_of_le h le
  | op opcode => exact h
  | unknown byte => exact h

@[simp] theorem Instruction.instruction_lexeme (instruction : Instruction) :
    instruction.lexeme.instruction = instruction := by
  cases instruction with
  | push data => simp only [lexeme]; split <;> rfl
  | op opcode => rfl
  | unknown byte => rfl

theorem Lexeme.wellFormed_inlinePush {data : Bytes} : (inlinePush data).WellFormed ↔
    1 ≤ data.length ∧ data.length ≤ maxInlinePush ∧
      (Opcode.ofByte? (UInt8.ofNat data.length)).isNone := by
  rw [← and_assoc, Option.isNone_iff_eq_none]
  exact (and_congr_right fun inline => Opcode.ofByte?_ofNat_eq_none inline).symm

theorem Instruction.lexeme_of_inline {data : Bytes} (h : (Lexeme.inlinePush data).WellFormed) :
    (push data).lexeme = .inlinePush data := if_pos (Lexeme.wellFormed_inlinePush.mp h)

theorem Instruction.lexeme_of_not_inline {data : Bytes}
    (h : ¬ (Lexeme.inlinePush data).WellFormed) :
    (push data).lexeme = .prefixedPush (PushWidth.narrowest data.length) data :=
  if_neg fun inline => h (Lexeme.wellFormed_inlinePush.mpr inline)

theorem Instruction.WellFormed.lexeme {instruction : Instruction} (h : instruction.WellFormed) :
    instruction.lexeme.WellFormed := by
  cases instruction with
  | push data =>
    by_cases inline : (Lexeme.inlinePush data).WellFormed
    · rwa [Instruction.lexeme_of_inline inline]
    · rw [Instruction.lexeme_of_not_inline inline]
      exact PushWidth.lt_of_narrowest h
  | op opcode => exact h
  | unknown byte => exact h

-- ----------------------------------------------------------------------------
-- Reading one spelling
-- ----------------------------------------------------------------------------

namespace Lexeme

theorem head_cases (head : UInt8) :
    (∃ width : PushWidth, head = width.opcode.byte) ∨
    (∃ opcode : Opcode, ¬ opcode.IsPushData ∧ head = opcode.byte) ∨
    (Opcode.ofByte? head = none ∧ IsInlineLength head.toNat) ∨
    (Opcode.ofByte? head = none ∧ ¬ IsInlineLength head.toNat) := by
  cases found : Opcode.ofByte? head with
  | none =>
    by_cases inline : IsInlineLength head.toNat
    · exact .inr (.inr (.inl ⟨rfl, inline⟩))
    · exact .inr (.inr (.inr ⟨rfl, inline⟩))
  | some opcode =>
    obtain rfl := Opcode.byte_eq_of_ofByte? found
    cases announced : opcode.pushWidth? with
    | some width =>
      obtain rfl := Opcode.pushWidth?_eq_some.mp announced
      exact .inl ⟨width, rfl⟩
    | none => exact .inr (.inl ⟨opcode, Opcode.pushWidth?_eq_none.mp announced, rfl⟩)

variable {offset : Nat} {head : UInt8} {tail rest : Bytes} {lexeme : Lexeme}

theorem read_pushOpcode (width : PushWidth) :
    read offset width.opcode.byte tail = do
      let (declared, tail) ← readLength offset width tail
      let (data, rest) ← readData offset declared tail
      return (.prefixedPush width data, rest) := by
  simp only [read, Opcode.ofByte?_byte, Opcode.pushWidth?_opcode]

theorem read_op {opcode : Opcode} (h : ¬ opcode.IsPushData) :
    read offset opcode.byte tail = .ok (.op opcode, tail) := by
  simp only [read, Opcode.ofByte?_byte, Opcode.pushWidth?_eq_none.mpr h]
  rfl

theorem read_inline (unregistered : Opcode.ofByte? head = none) (h : IsInlineLength head.toNat) :
    read offset head tail = do
      let (data, rest) ← readData offset head.toNat tail
      return (.inlinePush data, rest) := by
  simp only [read, unregistered]
  exact if_pos h

theorem read_unknown (unregistered : Opcode.ofByte? head = none)
    (h : ¬ IsInlineLength head.toNat) : read offset head tail = .ok (.unknown head, tail) := by
  simp only [read, unregistered]
  exact if_neg h

theorem wellFormed_of_read (h : read offset head tail = .ok (lexeme, rest)) :
    lexeme.WellFormed := by
  rcases head_cases head with ⟨width, rfl⟩ | ⟨opcode, hop, rfl⟩ | ⟨hn, hi⟩ | ⟨hn, hi⟩
  · simp only [read_pushOpcode, Except.bind_eq_ok, Prod.exists, pure, Except.pure,
      Except.ok.injEq, Prod.mk.injEq] at h
    obtain ⟨declared, after, hl, data, _, hd, rfl, -⟩ := h
    obtain ⟨digits, -, size, rfl⟩ := readLength_eq_ok.mp hl
    obtain ⟨-, length⟩ := readData_eq_ok.mp hd
    rw [WellFormed, length, ← size]
    exact ofLeBytes_lt digits
  · rw [read_op hop] at h
    cases h
    exact hop
  · simp only [read_inline hn hi, Except.bind_eq_ok, Prod.exists, pure, Except.pure,
      Except.ok.injEq, Prod.mk.injEq] at h
    obtain ⟨data, _, hd, rfl, -⟩ := h
    obtain ⟨-, length⟩ := readData_eq_ok.mp hd
    rw [← UInt8.ofNat_toNat (x := head), ← length] at hn
    rw [← length] at hi
    exact ⟨hi, (Opcode.ofByte?_ofNat_eq_none hi).mp hn⟩
  · rw [read_unknown hn hi] at h
    cases h
    exact ⟨hn, hi⟩

theorem read_of_wellFormed (h : lexeme.WellFormed) (spelled : head :: tail = lexeme.bytes ++ rest) :
    read offset head tail = .ok (lexeme, rest) := by
  cases lexeme with
  | inlinePush data =>
    obtain ⟨inline, unregistered⟩ := h
    simp only [bytes, List.cons_append, List.cons.injEq] at spelled
    obtain ⟨rfl, rfl⟩ := spelled
    have value : (UInt8.ofNat data.length).toNat = data.length := by
      have : data.length ≤ 0x75 := inline.2
      rw [UInt8.toNat_ofNat']
      omega
    have fresh := (Opcode.ofByte?_ofNat_eq_none inline).mpr unregistered
    rw [read_inline fresh (by rwa [value]), value, readData_eq_ok.mpr ⟨rfl, rfl⟩]
    rfl
  | prefixedPush width data =>
    simp only [bytes, List.cons_append, List.append_assoc, List.cons.injEq] at spelled
    obtain ⟨rfl, rfl⟩ := spelled
    have length : readLength offset width (leBytes width.size data.length ++ (data ++ rest)) =
        .ok (data.length, data ++ rest) :=
      readLength_eq_ok.mpr ⟨_, rfl, leBytes_length _ _, ofLeBytes_leBytes h⟩
    rw [read_pushOpcode, length]
    show (readData offset data.length (data ++ rest) >>= _) = _
    rw [readData_eq_ok.mpr ⟨rfl, rfl⟩]
    rfl
  | op opcode =>
    simp only [bytes, List.cons_append, List.nil_append, List.cons.injEq] at spelled
    obtain ⟨rfl, rfl⟩ := spelled
    exact read_op h
  | unknown byte =>
    simp only [bytes, List.cons_append, List.nil_append, List.cons.injEq] at spelled
    obtain ⟨rfl, rfl⟩ := spelled
    exact read_unknown h.1 h.2

theorem read_eq_ok : read offset head tail = .ok (lexeme, rest) ↔
    lexeme.WellFormed ∧ head :: tail = lexeme.bytes ++ rest :=
  ⟨fun h => ⟨wellFormed_of_read h, bytes_append_of_read h⟩, fun h => read_of_wellFormed h.1 h.2⟩

end Lexeme

-- ----------------------------------------------------------------------------
-- Reading a script
-- ----------------------------------------------------------------------------

theorem lexFrom_append {lexemes : List Lexeme} (h : ∀ lexeme ∈ lexemes, lexeme.WellFormed)
    (offset : Nat) (rest : Bytes) :
    lexFrom offset (lexemes.flatMap Lexeme.bytes ++ rest) =
      (lexFrom (offset + (lexemes.flatMap Lexeme.bytes).length) rest).map (lexemes ++ ·) := by
  induction lexemes generalizing offset with
  | nil =>
    show lexFrom offset rest = (lexFrom offset rest).map id
    cases lexFrom offset rest <;> rfl
  | cons lexeme others ih =>
    obtain ⟨hl, ho⟩ := List.forall_mem_cons.mp h
    obtain ⟨head, tail, spelled⟩ :
        ∃ head tail, lexeme.bytes ++ (others.flatMap Lexeme.bytes ++ rest) = head :: tail := by
      cases lexeme <;> exact ⟨_, _, rfl⟩
    rw [List.flatMap_cons, List.append_assoc, spelled, lexFrom_cons,
      Lexeme.read_eq_ok.mpr ⟨hl, spelled.symm⟩, List.length_append, Lexeme.length_bytes,
      ← Nat.add_assoc]
    simp only [ih ho]
    cases lexFrom (offset + lexeme.size + (others.flatMap Lexeme.bytes).length) rest <;> rfl

theorem lexFrom_flatMap_bytes {lexemes : List Lexeme} (h : ∀ lexeme ∈ lexemes, lexeme.WellFormed)
    (offset : Nat) : lexFrom offset (lexemes.flatMap Lexeme.bytes) = .ok lexemes := by
  have whole := lexFrom_append h offset []
  rw [List.append_nil, lexFrom_nil] at whole
  rw [whole]
  exact congrArg Except.ok (List.append_nil lexemes)

theorem wellFormed_of_lexFrom {offset : Nat} {bytes : Bytes} {lexemes : List Lexeme}
    (h : lexFrom offset bytes = .ok lexemes) : ∀ lexeme ∈ lexemes, lexeme.WellFormed := by
  induction lexemes generalizing offset bytes with
  | nil => simp
  | cons lexeme others ih =>
    cases bytes with
    | nil => simp at h
    | cons head tail =>
      rw [lexFrom_cons] at h
      split at h
      next => cases h
      next first rest step =>
        obtain ⟨_, more, same⟩ := Except.map_eq_ok.mp h
        obtain ⟨rfl, rfl⟩ := List.cons.inj same
        exact List.forall_mem_cons.mpr ⟨Lexeme.wellFormed_of_read step, ih more⟩

theorem lexFrom_eq_ok {offset : Nat} {bytes : Bytes} {lexemes : List Lexeme} :
    lexFrom offset bytes = .ok lexemes ↔
      (∀ lexeme ∈ lexemes, lexeme.WellFormed) ∧ lexemes.flatMap Lexeme.bytes = bytes := by
  constructor
  · intro h
    exact ⟨wellFormed_of_lexFrom h, flatMap_bytes_of_lexFrom h⟩
  · rintro ⟨h, rfl⟩
    exact lexFrom_flatMap_bytes h offset

theorem Script.decode_eq_ok {bytes : Bytes} {script : Script} :
    decode bytes = .ok script ↔ ∃ lexemes : List Lexeme,
      (∀ lexeme ∈ lexemes, lexeme.WellFormed) ∧ lexemes.flatMap Lexeme.bytes = bytes ∧
        lexemes.map Lexeme.instruction = script := by
  simp only [decode, lex, Except.map_eq_ok, lexFrom_eq_ok, and_assoc]

end SpendScript
