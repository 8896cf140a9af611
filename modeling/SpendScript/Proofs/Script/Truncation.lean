import SpendScript.Proofs.Script.Spelling

/-!
# Where decoding fails

All that can be wrong with the bytes of a script is that they end inside a push. `Script.Truncated`
says of an offset that what stands before it is a script and that the push that starts there is cut
short, and how. Main statement: decoding fails with exactly the error that tells of such a push, there
is at most one in any bytes, and bytes without one decode.
-/

namespace SpendScript

/-- The bytes start with a push, and its length is there: the length that it declares, and the bytes
after the length. -/
inductive StartsPush : Bytes → Nat → Bytes → Prop
  | inlineLength {head : UInt8} (after : Bytes) : IsInlineLength head.toNat →
      head.toNat ∉ [0x4c, 0x4d, 0x4e] → StartsPush (head :: after) head.toNat after
  | lengthPrefix (width : PushWidth) {length : Bytes} (after : Bytes) :
      length.length = width.size →
      StartsPush (width.opcode.byte :: (length ++ after)) (ofLeBytes length) after

/-- The bytes end inside the push that they start with, which stands at `offset`. -/
inductive CutShort (offset : Nat) : Bytes → DecodeError → Prop
  | length (width : PushWidth) {after : Bytes} : after.length < width.size →
      CutShort offset (width.opcode.byte :: after) (.truncatedLength offset width.size)
  | data {bytes after : Bytes} {declared : Nat} : StartsPush bytes declared after →
      after.length < declared →
      CutShort offset bytes (.truncatedPush offset declared after.length)

def DecodeError.offset : DecodeError → Nat
  | .truncatedLength offset _ | .truncatedPush offset _ _ => offset

variable {offset declared : Nat} {width : PushWidth} {head : UInt8} {tail bytes : Bytes}
  {error : DecodeError}

theorem CutShort.offset_eq (h : CutShort offset bytes error) : error.offset = offset := by
  cases h <;> rfl

theorem CutShort.exists_cons (h : CutShort offset bytes error) :
    ∃ head tail, bytes = head :: tail := by
  cases h with
  | length width short => exact ⟨_, _, rfl⟩
  | data starts short => cases starts <;> exact ⟨_, _, rfl⟩

namespace Lexeme

theorem readLength_eq_error : readLength offset width bytes = .error error ↔
    bytes.length < width.size ∧ error = .truncatedLength offset width.size := by
  unfold readLength
  cases split : splitBytes? width.size bytes with
  | none => simp [splitBytes?_eq_none.mp split, @eq_comm _ error]
  | some halves =>
    have enough : ¬ bytes.length < width.size := fun short => by
      rw [splitBytes?_eq_none.mpr short] at split
      cases split
    simp [enough]

theorem readData_eq_error : readData offset declared bytes = .error error ↔
    bytes.length < declared ∧ error = .truncatedPush offset declared bytes.length := by
  unfold readData
  cases split : splitBytes? declared bytes with
  | none => simp [splitBytes?_eq_none.mp split, @eq_comm _ error]
  | some halves =>
    have enough : ¬ bytes.length < declared := fun short => by
      rw [splitBytes?_eq_none.mpr short] at split
      cases split
    simp [enough]

theorem read_of_cutShort (h : CutShort offset (head :: tail) error) :
    read offset head tail = .error error := by
  cases h with
  | length width short =>
    rw [read_pushOpcode, readLength_eq_error.mpr ⟨short, rfl⟩]
    rfl
  | data starts short =>
    cases starts with
    | inlineLength after inline fresh =>
      have unregistered : Opcode.ofByte? head = none := by
        rw [← UInt8.ofNat_toNat (x := head)]
        exact (Opcode.ofByte?_ofNat_eq_none inline).mpr fresh
      rw [read_inline unregistered inline, readData_eq_error.mpr ⟨short, rfl⟩]
      rfl
    | lengthPrefix width after size =>
      rw [read_pushOpcode, readLength_eq_ok.mpr ⟨_, rfl, size, rfl⟩]
      show (readData offset _ _ >>= _) = _
      rw [readData_eq_error.mpr ⟨short, rfl⟩]
      rfl

theorem cutShort_of_read (h : read offset head tail = .error error) :
    CutShort offset (head :: tail) error := by
  rcases head_cases head with ⟨width, rfl⟩ | ⟨opcode, hop, rfl⟩ | ⟨hn, hi⟩ | ⟨hn, hi⟩
  · rw [read_pushOpcode] at h
    cases hl : readLength offset width tail with
    | error e =>
      obtain ⟨short, rfl⟩ := readLength_eq_error.mp hl
      rw [hl] at h
      cases h
      exact .length width short
    | ok length =>
      obtain ⟨declared, after⟩ := length
      obtain ⟨digits, rfl, size, rfl⟩ := readLength_eq_ok.mp hl
      cases hd : readData offset (ofLeBytes digits) after with
      | error e =>
        obtain ⟨short, rfl⟩ := readData_eq_error.mp hd
        simp only [hl, hd, bind, Except.bind, Except.error.injEq] at h
        subst h
        exact .data (.lengthPrefix width after size) short
      | ok split => simp [hl, hd, bind, Except.bind, pure, Except.pure] at h
  · rw [read_op hop] at h
    cases h
  · rw [read_inline hn hi] at h
    cases hd : readData offset head.toNat tail with
    | error e =>
      obtain ⟨short, rfl⟩ := readData_eq_error.mp hd
      rw [hd] at h
      cases h
      have fresh : head.toNat ∉ [0x4c, 0x4d, 0x4e] := by
        rwa [← UInt8.ofNat_toNat (x := head), Opcode.ofByte?_ofNat_eq_none hi] at hn
      exact .data (.inlineLength tail hi fresh) short
    | ok split => simp [hd, bind, Except.bind, pure, Except.pure] at h
  · rw [read_unknown hn hi] at h
    cases h

theorem read_eq_error : read offset head tail = .error error ↔
    CutShort offset (head :: tail) error :=
  ⟨cutShort_of_read, read_of_cutShort⟩

end Lexeme

theorem lexFrom_of_cutShort (h : CutShort offset bytes error) :
    lexFrom offset bytes = .error error := by
  obtain ⟨head, tail, rfl⟩ := h.exists_cons
  rw [lexFrom_cons, Lexeme.read_eq_error.mpr h]

theorem exists_cutShort_of_lexFrom {offset : Nat} {bytes : Bytes} {error : DecodeError}
    (h : lexFrom offset bytes = .error error) : ∃ (lexemes : List Lexeme) (rest : Bytes),
      (∀ lexeme ∈ lexemes, lexeme.WellFormed) ∧ lexemes.flatMap Lexeme.bytes ++ rest = bytes ∧
      CutShort (offset + (lexemes.flatMap Lexeme.bytes).length) rest error := by
  match bytes with
  | [] => simp at h
  | head :: tail =>
    rw [lexFrom_cons] at h
    match step : Lexeme.read offset head tail with
    | .error first =>
      simp only [step, Except.error.injEq] at h
      subst h
      exact ⟨[], head :: tail, nofun, rfl, Lexeme.read_eq_error.mp step⟩
    | .ok (lexeme, after) =>
      match more : lexFrom (offset + lexeme.size) after with
      | .ok others => simp [step, more, Except.map] at h
      | .error later =>
        simp only [step, more, Except.map, Except.error.injEq] at h
        subst h
        obtain ⟨wellFormed, spelled⟩ := Lexeme.read_eq_ok.mp step
        obtain ⟨lexemes, rest, others, rfl, cut⟩ := exists_cutShort_of_lexFrom more
        refine ⟨lexeme :: lexemes, rest, List.forall_mem_cons.mpr ⟨wellFormed, others⟩, ?_, ?_⟩
        · rw [spelled, List.flatMap_cons, List.append_assoc]
        · rwa [List.flatMap_cons, List.length_append, Lexeme.length_bytes, ← Nat.add_assoc]
termination_by bytes.length
decreasing_by simpa only [List.length_cons] using Lexeme.length_lt_of_read step

namespace Script

/-- The bytes before `offset` are a script, and the push there is cut short as the error tells. -/
def Truncated (bytes : Bytes) (offset : Nat) (error : DecodeError) : Prop :=
  (∃ script, decode (bytes.take offset) = .ok script) ∧ CutShort offset (bytes.drop offset) error

theorem decode_eq_error : decode bytes = .error error ↔ lexFrom 0 bytes = .error error := by
  unfold decode lex
  cases lexFrom 0 bytes <;> simp [Except.map]

theorem Truncated.length_take (h : Truncated bytes offset error) :
    (bytes.take offset).length = offset := by
  obtain ⟨head, tail, drop⟩ := h.2.exists_cons
  have := congrArg List.length drop
  simp only [List.length_drop, List.length_cons, List.length_take] at this ⊢
  omega

theorem decode_of_truncated (h : Truncated bytes offset error) : decode bytes = .error error := by
  have inside := h.length_take
  obtain ⟨⟨script, before⟩, cut⟩ := h
  obtain ⟨lexemes, wellFormed, spelled, -⟩ := decode_eq_ok.mp before
  have read := lexFrom_append wellFormed 0 (bytes.drop offset)
  rw [spelled, List.take_append_drop, inside, Nat.zero_add, lexFrom_of_cutShort cut] at read
  exact decode_eq_error.mpr read

theorem truncated_of_decode (h : decode bytes = .error error) :
    ∃ offset, Truncated bytes offset error := by
  obtain ⟨lexemes, rest, wellFormed, rfl, cut⟩ := exists_cutShort_of_lexFrom (decode_eq_error.mp h)
  refine ⟨(lexemes.flatMap Lexeme.bytes).length, ?_, ?_⟩
  · rw [List.take_left]
    exact ⟨_, decode_eq_ok.mpr ⟨lexemes, wellFormed, rfl, rfl⟩⟩
  · rwa [List.drop_left, ← Nat.zero_add (List.length _)]

/-- Decoding fails exactly where the bytes end inside a push, with the error that tells of it. No
other error fits the bytes, at no other offset, and bytes that none fits decode. -/
theorem decode_eq_error_iff_truncated (bytes : Bytes) :
    (∀ error, decode bytes = .error error ↔ ∃ offset, Truncated bytes offset error) ∧
      (∀ offset error offset' error', Truncated bytes offset error →
        Truncated bytes offset' error' → offset = offset' ∧ error = error') ∧
      ((∀ offset error, ¬ Truncated bytes offset error) → ∃ script, decode bytes = .ok script) := by
  refine ⟨fun error => ⟨truncated_of_decode, fun ⟨_, h⟩ => decode_of_truncated h⟩, ?_, ?_⟩
  · intro offset error offset' error' h h'
    obtain rfl := Except.error.inj ((decode_of_truncated h).symm.trans (decode_of_truncated h'))
    exact ⟨h.2.offset_eq.symm.trans h'.2.offset_eq, rfl⟩
  · intro none
    cases decoded : decode bytes with
    | ok script => exact ⟨script, rfl⟩
    | error error =>
      obtain ⟨offset, h⟩ := truncated_of_decode decoded
      exact (none offset error h).elim

example : decode [0xac, 0x4e, 0x01, 0x00, 0x00] = .error (.truncatedLength 1 4) := by cbv

end Script

end SpendScript
